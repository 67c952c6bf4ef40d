import PacketLossUtils.EventLoop
import PacketLossUtils.Lifecycle

/-! The process of the server, which ends with the destructor however it leaves its event loop. -/
namespace PacketLossUtils.Server

open Effect NetworkCore Trace

variable {Address : Type} {uniqueId : UInt64} {qt : QtText}

/-- The event that a datagram is. -/
def ofDatagram (readings : ℤ × ℤ) (address : Address) (port : UInt16) (message : Message) :
    Event Address :=
  .message readings.1 readings.2 address port message

/-- `onSigIntReceived` calls `QCoreApplication::exit(0)`. -/
def callsExit : Event Address → Bool
  | .sigInt => true
  | _ => false

/-- The server's branch of `main`: the value returned and what was done until then. The
constructor throws unless the port could be bound. -/
def main (qt : QtText) (bound : Bool)
    (iterations : List (List (Wakeup Address (ℤ × ℤ) (Event Address)))) :
    Option (ℤ × List (Effect Address)) :=
  if !bound then some (-1, [])
  else
    let left := (Loop.start .new).exec qt step ofDatagram callsExit iterations
    left.result.map fun code => (code, left.effects ++ left.state.destruct)

/-- The process fails where the port is taken and at the first malformed datagram, and returns 0
after an interrupt. -/
def Returns (qt : QtText) (bound : Bool)
    (iterations : List (List (Wakeup Address (ℤ × ℤ) (Event Address)))) (code : ℤ) : Prop :=
  bound = false ∧ code = -1 ∨ bound = true ∧ Left qt callsExit iterations code

/-- The events of a process, in order. -/
def handled (qt : QtText) (bound : Bool)
    (iterations : List (List (Wakeup Address (ℤ × ℤ) (Event Address)))) : List (Event Address) :=
  if bound then (taken qt callsExit iterations).flatMap (Wakeup.events qt ofDatagram) else []

/-! ### Marks and datagrams -/

namespace Mark

def datagram : Mark Address → Option (Message × Address × UInt16)
  | .sent message address port => some (message, address, port)
  | _ => none

/-- The client itself ends the session. -/
def closedByClient : Mark Address → Bool
  | .ended (some (.message _ _ _ _ _)) => true
  | _ => false

theorem datagram_sentAll (ds : List (Message × Address × UInt16)) :
    (sentAll ds).filterMap datagram = ds := by
  simp [sentAll, List.filterMap_map, Function.comp_def, datagram]

theorem datagram_ite {p : Prop} [Decidable p] {mark : Mark Address} (h : mark.datagram = none) :
    (if p then [mark] else []).filterMap datagram = [] := by
  split
  · rw [List.filterMap_cons_none h, List.filterMap_nil]
  · rfl

end Mark

/-- Answers to a Welcome. -/
def isAnswer (d : Message × Address × UInt16) : Bool :=
  match d.1 with
  | .welcome _ => true
  | _ => false

/-- Closes that end a session. -/
def isFarewell (d : Message × Address × UInt16) : Bool :=
  match d.1 with
  | .close m => m.reason != CloseMessage.reasonUnsolicited
  | _ => false

theorem datagrams_marks (uniqueId : UInt64) (e : Event Address) (s : Server Address) :
    (marks uniqueId e s).filterMap Mark.datagram = datagrams uniqueId (s.step e).2 := by
  rw [marks, List.filterMap_append, List.filterMap_append, Mark.datagram_sentAll,
    Mark.datagram_ite rfl, Mark.datagram_ite rfl, List.nil_append, List.append_nil]

/-- The history of an id shows all of its datagrams. -/
theorem datagrams_history (uniqueId : UInt64) (events : List (Event Address))
    (s : Server Address) :
    (history uniqueId events s).filterMap Mark.datagram =
      datagrams uniqueId ((run step events s).2 ++ (run step events s).1.destruct) := by
  induction events generalizing s with
  | nil =>
    rw [history, List.filterMap_append, Mark.datagram_sentAll, Mark.datagram_ite rfl,
      List.append_nil, run_nil, List.nil_append]
  | cons e events ih =>
    rw [history, List.filterMap_append, datagrams_marks, ih, ← datagrams_append,
      ← List.append_assoc, run_cons]

/-- Every session that begins also ends: with a Close to the client, or with a Close of it. -/
theorem Lifecycle.balance {endpoint : Option (Address × UInt16)} {marks : List (Mark Address)}
    (h : Lifecycle uniqueId endpoint marks) :
    (marks.filterMap Mark.datagram).countP isAnswer + endpoint.toList.length =
      (marks.filterMap Mark.datagram).countP isFarewell + marks.countP Mark.closedByClient := by
  rw [List.countP_filterMap, List.countP_filterMap]
  induction h with
  | done => rfl
  | unsolicited address port h ih =>
    simpa [List.countP_cons, Mark.datagram, Mark.closedByClient, isAnswer, isFarewell] using ih
  | registered now now' hid hinterval h ih =>
    simpa [List.countP_cons, Mark.datagram, Mark.closedByClient, isAnswer, isFarewell] using ih
  | ping h ih =>
    simpa [List.countP_cons, Mark.datagram, Mark.closedByClient, isAnswer, isFarewell] using ih
  | closed now now' sender senderPort hid h ih =>
    simp [List.countP_cons, Mark.datagram, Mark.closedByClient] at ih ⊢
    omega
  | timedOut now nowStart h ih =>
    have htimeout : CloseMessage.reasonTimeout ≠ CloseMessage.reasonUnsolicited := by decide
    simp [List.countP_cons, Mark.datagram, Mark.closedByClient, isAnswer, isFarewell,
      htimeout] at ih ⊢
    omega
  | interrupted h ih =>
    have hquit : CloseMessage.reasonQuit ≠ CloseMessage.reasonUnsolicited := by decide
    simp [List.countP_cons, Mark.datagram, Mark.closedByClient, isAnswer, isFarewell,
      hquit] at ih ⊢
    omega
  | destroyed =>
    have hquit : CloseMessage.reasonQuit ≠ CloseMessage.reasonUnsolicited := by decide
    simp [List.countP_cons, Mark.datagram, Mark.closedByClient, isAnswer, isFarewell, hquit]

/-! ### The process -/

variable {bound : Bool} {iterations : List (List (Wakeup Address (ℤ × ℤ) (Event Address)))}
  {code : ℤ} {done : List (Effect Address)}

/-- Whatever ends the process, it has handled its events and then destroyed the server. -/
theorem main_done (h : main qt bound iterations = some (code, done)) :
    done = (run step (handled qt bound iterations) .new).2 ++
      (run step (handled qt bound iterations) .new).1.destruct := by
  cases bound with
  | false =>
    obtain ⟨rfl, rfl⟩ : -1 = code ∧ [] = done := by simpa [main] using h
    rfl
  | true =>
    have htook : Took qt step ofDatagram callsExit (taken qt callsExit iterations)
        (Loop.start .new) _ := took_exec rfl rfl iterations
    simp only [main, Bool.not_true, Bool.false_eq_true, if_false, Option.map_eq_some_iff,
      Prod.mk.injEq] at h
    obtain ⟨_, -, -, rfl⟩ := h
    rw [htook.effects, htook.state]
    rfl

theorem main_returns (h : main qt bound iterations = some (code, done)) :
    Returns qt bound iterations code := by
  cases bound with
  | false =>
    obtain ⟨rfl, -⟩ : -1 = code ∧ [] = done := by simpa [main] using h
    exact .inl ⟨rfl, rfl⟩
  | true =>
    simp only [main, Bool.not_true, Bool.false_eq_true, if_false, Option.map_eq_some_iff,
      Prod.mk.injEq] at h
    obtain ⟨_, hresult, rfl, -⟩ := h
    exact .inr ⟨rfl, left_of_result hresult⟩

/-- However the process ends, it leaves no session open: for every id the datagrams written are
those of well-formed sessions, and each answer to a Welcome is made up for by a Close of either
side. -/
theorem main_leaves_none (h : main qt bound iterations = some (code, done)) :
    Returns qt bound iterations code ∧ ∀ uniqueId,
      let marks := history uniqueId (handled qt bound iterations) .new
      Lifecycle uniqueId none marks ∧ marks.filterMap Mark.datagram = datagrams uniqueId done ∧
        (datagrams uniqueId done).countP isAnswer =
          (datagrams uniqueId done).countP isFarewell + marks.countP Mark.closedByClient := by
  refine ⟨main_returns h, ?_⟩
  intro uniqueId marks
  have hlifecycle : Lifecycle uniqueId none marks := lifecycle_history uniqueId _ .new
  have hdatagrams : marks.filterMap Mark.datagram = datagrams uniqueId done := by
    rw [main_done h]
    exact datagrams_history uniqueId _ .new
  refine ⟨hlifecycle, hdatagrams, ?_⟩
  rw [← hdatagrams]
  exact hlifecycle.balance

/-- A client has registered when three stray bytes end the process, which sends it a Close. -/
theorem main_leaves_none_malformed :
    let welcome : Wakeup ℕ (ℤ × ℤ) (Event ℕ) :=
      .readyRead [(⟨(WelcomeMessage.new 7 250).toData, 2, 5000⟩, (0, 0))]
    let stray : Wakeup ℕ (ℤ × ℤ) (Event ℕ) := .readyRead [(⟨[0, 0, 0], 5, 5000⟩, (900, 900))]
    let iterations := [[welcome], [.event (.pingTimer 250)], [stray]]
    ∃ code done, main .ascii true iterations = some (code, done) ∧
      Returns .ascii true iterations code ∧
        (datagrams 7 done).countP isAnswer = (datagrams 7 done).countP isFarewell := by
  intro welcome stray iterations
  have hreturns : (main .ascii true iterations).isSome := by decide +kernel
  obtain ⟨⟨code, done⟩, h⟩ := Option.isSome_iff_exists.mp hreturns
  refine ⟨code, done, h, (main_leaves_none h).1, ?_⟩
  have hnone :
      (history 7 (handled .ascii true iterations) .new).countP Mark.closedByClient = 0 := by
    decide +kernel
  rw [((main_leaves_none h).2 7).2.2, hnone]
  rfl

end PacketLossUtils.Server
