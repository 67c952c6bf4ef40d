import PacketLossUtils.DatagramLoop

/-! The event loop of the process, which a malformed datagram ends. -/
namespace PacketLossUtils.NetworkCore

open Trace

variable {Address τ ι σ ε : Type} {qt : QtText} {step : ι → σ → σ × List ε}
  {message : τ → Address → UInt16 → Message → ι} {callsExit : ι → Bool}

/-- What the event loop takes up: a timer or a signal, or `readyRead` with all that is pending. The
handler of one is over before the next is taken up. -/
inductive Wakeup (Address τ ι : Type)
  | event (e : ι)
  | readyRead (pending : List (Datagram Address × τ))

/-- Where the event loop is: whether `exit` was called, and the exception that leaves it. -/
structure Loop (σ ε : Type) where
  state : σ
  effects : List ε
  exiting : Bool
  thrown : Option ProtocolErrorException

namespace Loop

def start (s : σ) : Loop σ ε := ⟨s, [], false, none⟩

/-- Nothing is taken up behind an exception. -/
def wake (qt : QtText) (step : ι → σ → σ × List ε)
    (message : τ → Address → UInt16 → Message → ι) (callsExit : ι → Bool) (l : Loop σ ε)
    (w : Wakeup Address τ ι) : Loop σ ε :=
  if l.thrown.isSome then l
  else
    match w with
    | .event e =>
      { l with
        state := (step e l.state).1
        effects := l.effects ++ (step e l.state).2
        exiting := l.exiting || callsExit e }
    | .readyRead pending =>
      let out := readPendingDatagrams qt
        (fun readings address port m => step (message readings address port m)) pending l.state
      { l with
        state := out.state
        effects := l.effects ++ out.effects
        thrown := out.thrown }

/-- `exec()`, iteration by iteration: what an iteration has begun to take up it takes up also after
a call of `exit`. Two things are taken for granted that the source leaves to Qt and the system: the
exception of a slot leaves `exec()`, and a SIGINT is taken up between two handlers. -/
def exec (qt : QtText) (step : ι → σ → σ × List ε)
    (message : τ → Address → UInt16 → Message → ι) (callsExit : ι → Bool) :
    List (List (Wakeup Address τ ι)) → Loop σ ε → Loop σ ε
  | [], l => l
  | iteration :: iterations, l =>
    if l.exiting || l.thrown.isSome then l
    else exec qt step message callsExit iterations
      (iteration.foldl (wake qt step message callsExit) l)

/-- What `main` returns: -1 from its handler, the 0 of `exit`, and nothing as long as the loop
runs. -/
def result (l : Loop σ ε) : Option ℤ :=
  if l.thrown.isSome then some (-1) else if l.exiting then some 0 else none

end Loop

/-! ### What is taken up -/

/-- The elements up to the first of a kind, and that one. -/
def upTo {α : Type} (p : α → Bool) : List α → List α
  | [] => []
  | a :: l => a :: if p a then [] else upTo p l

/-- The datagram makes the loop over the pending ones throw. -/
def rejected (qt : QtText) (data : QByteArray) : Bool :=
  data.length ≠ 0 && match parseIncomingMessage qt data with
    | .error _ => true
    | .ok _ => false

namespace Wakeup

/-- The events a wakeup stands for: of the pending datagrams those that decode, up to the first
that is malformed. -/
def events (qt : QtText) (message : τ → Address → UInt16 → Message → ι) :
    Wakeup Address τ ι → List ι
  | .event e => [e]
  | .readyRead pending =>
    (decoded qt (pending.takeWhile fun entry => !rejected qt entry.1.data)).map
      fun i => message i.1 i.2.1 i.2.2.1 i.2.2.2

def exits (callsExit : ι → Bool) : Wakeup Address τ ι → Bool
  | .event e => callsExit e
  | .readyRead _ => false

/-- A malformed datagram is pending. -/
def throws (qt : QtText) : Wakeup Address τ ι → Bool
  | .event _ => false
  | .readyRead pending => pending.any fun entry => rejected qt entry.1.data

end Wakeup

/-- The wakeups of the loop: all of the iterations up to the one that calls `exit`, unless one
throws. -/
def taken (qt : QtText) (callsExit : ι → Bool) (iterations : List (List (Wakeup Address τ ι))) :
    List (Wakeup Address τ ι) :=
  upTo (Wakeup.throws qt)
    (upTo (fun iteration => iteration.any (Wakeup.exits callsExit)) iterations).flatten

section

variable {α : Type} {p : α → Bool}

theorem upTo_append (xs ys : List α) :
    upTo p (xs ++ ys) = upTo p xs ++ if xs.any p then [] else upTo p ys := by
  induction xs with
  | nil => rfl
  | cons x xs ih =>
    rw [List.cons_append, upTo, upTo, ih, List.any_cons]
    cases p x <;> simp

theorem upTo_eq_self {xs : List α} (h : xs.any p = false) : upTo p xs = xs := by
  induction xs with
  | nil => rfl
  | cons x xs ih =>
    rw [List.any_cons, Bool.or_eq_false_iff] at h
    rw [upTo, h.1, if_neg Bool.false_ne_true, ih h.2]

theorem any_upTo (xs : List α) : (upTo p xs).any p = xs.any p := by
  induction xs with
  | nil => rfl
  | cons x xs ih =>
    rw [upTo, List.any_cons, List.any_cons, ← ih]
    cases p x <;> simp

end

theorem rejected_iff (qt : QtText) (data : QByteArray) :
    rejected qt data = true ↔ Malformed qt data := by
  by_cases hempty : data.length = 0
  · simp [rejected, Malformed, hempty]
  · rw [← parse_eq_error_iff hempty, rejected]
    cases parseIncomingMessage qt data <;> simp [hempty]

theorem throws_iff (w : Wakeup Address τ ι) :
    w.throws qt = true ↔
      ∃ pending, w = .readyRead pending ∧ ∃ entry ∈ pending, Malformed qt entry.1.data := by
  cases w with
  | event e => simp [Wakeup.throws]
  | readyRead pending => simp [Wakeup.throws, ← rejected_iff]

/-! ### The loop -/

/-- `l'` is where the loop gets from `l` with the wakeups. -/
structure Took (qt : QtText) (step : ι → σ → σ × List ε)
    (message : τ → Address → UInt16 → Message → ι) (callsExit : ι → Bool)
    (ws : List (Wakeup Address τ ι)) (l l' : Loop σ ε) : Prop where
  state : l'.state = (run step (ws.flatMap (Wakeup.events qt message)) l.state).1
  effects :
    l'.effects = l.effects ++ (run step (ws.flatMap (Wakeup.events qt message)) l.state).2
  exiting : l'.exiting = (l.exiting || ws.any (Wakeup.exits callsExit))
  thrown : l'.thrown.isSome = ws.any (Wakeup.throws qt)

theorem Took.append {ws ws' : List (Wakeup Address τ ι)} {l l' l'' : Loop σ ε}
    (h : Took qt step message callsExit ws l l')
    (h' : Took qt step message callsExit ws' l' l'') (hfine : l'.thrown.isSome = false) :
    Took qt step message callsExit (ws ++ ws') l l'' where
  state := by rw [List.flatMap_append, run_append, h'.state, h.state]
  effects := by
    rw [List.flatMap_append, run_append, h'.effects, h.effects, h.state, List.append_assoc]
  exiting := by rw [h'.exiting, h.exiting, List.any_append, Bool.or_assoc]
  thrown := by rw [h'.thrown, List.any_append, ← h.thrown, hfine, Bool.false_or]

theorem took_nil {l : Loop σ ε} (hfine : l.thrown.isSome = false) :
    Took qt step message callsExit [] l l where
  state := rfl
  effects := (List.append_nil _).symm
  exiting := (Bool.or_false _).symm
  thrown := hfine

theorem events_cons (entry : Datagram Address × τ) (pending : List (Datagram Address × τ)) :
    Wakeup.events qt message (.readyRead (entry :: pending)) =
      if rejected qt entry.1.data then []
      else (decoded qt [entry]).map (fun i => message i.1 i.2.1 i.2.2.1 i.2.2.2) ++
        Wakeup.events qt message (.readyRead pending) := by
  simp only [Wakeup.events, List.takeWhile_cons]
  cases rejected qt entry.1.data with
  | true => rfl
  | false =>
    rw [← List.map_append, decoded, decoded, decoded, ← List.filterMap_append]
    rfl

/-- What the loop over the pending datagrams does, up to the exception it may leave by. -/
theorem readPendingDatagrams_run (pending : List (Datagram Address × τ)) (s : σ) :
    let out := readPendingDatagrams qt
      (fun readings address port m => step (message readings address port m)) pending s
    let w : Wakeup Address τ ι := .readyRead pending
    out.state = (run step (w.events qt message) s).1 ∧
      out.effects = (run step (w.events qt message) s).2 ∧ out.thrown.isSome = w.throws qt := by
  induction pending generalizing s with
  | nil => exact ⟨rfl, rfl, rfl⟩
  | cons entry pending ih =>
    have hthrows : (Wakeup.readyRead (entry :: pending) : Wakeup Address τ ι).throws qt =
        (rejected qt entry.1.data ||
          (Wakeup.readyRead pending : Wakeup Address τ ι).throws qt) := by
      rw [Wakeup.throws, Wakeup.throws, List.any_cons]
    dsimp only
    rw [events_cons, hthrows, readPendingDatagrams]
    by_cases hempty : entry.1.data.length = 0
    · obtain ⟨e, he⟩ := parse_empty qt hempty
      have hfine : rejected qt entry.1.data = false := by simp [rejected, hempty]
      have hnone : decoded qt [entry] = [] := by simp [decoded, he]
      simpa [hempty, hfine, hnone] using ih s
    cases hparse : parseIncomingMessage qt entry.1.data with
    | error e =>
      have hrejected : rejected qt entry.1.data = true := by simp [rejected, hempty, hparse]
      simp [hempty, hrejected]
    | ok parsed =>
      have hfine : rejected qt entry.1.data = false := by simp [rejected, hparse]
      cases parsed with
      | none =>
        have hnone : decoded qt [entry] = [] := by simp [decoded, hparse]
        simpa [hempty, hfine, hnone] using ih s
      | some m =>
        have hone : decoded qt [entry] =
            [(entry.2, entry.1.senderAddress, entry.1.senderPort, m)] := by
          simp [decoded, hparse]
        obtain ⟨hstate, heffects, hthrown⟩ :=
          ih (step (message entry.2 entry.1.senderAddress entry.1.senderPort m) s).1
        simp [hempty, hfine, hone, run_cons, hstate, heffects, hthrown]

theorem took_wake {l : Loop σ ε} (hfine : l.thrown.isSome = false) (w : Wakeup Address τ ι) :
    Took qt step message callsExit [w] l (l.wake qt step message callsExit w) := by
  have hlive : ¬ l.thrown.isSome = true := by simp [hfine]
  cases w with
  | event e =>
    rw [Loop.wake, if_neg hlive]
    refine ⟨?_, ?_, ?_, hfine⟩
    · simp [Wakeup.events, run_singleton]
    · simp [Wakeup.events, run_singleton]
    · simp [Wakeup.exits]
  | readyRead pending =>
    obtain ⟨hstate, heffects, hthrown⟩ := readPendingDatagrams_run pending l.state
    rw [Loop.wake, if_neg hlive]
    refine ⟨?_, ?_, ?_, ?_⟩
    · simpa using hstate
    · simpa using heffects
    · simp [Wakeup.exits]
    · simpa using hthrown

theorem wake_of_thrown {l : Loop σ ε} (hthrown : l.thrown.isSome = true)
    (iteration : List (Wakeup Address τ ι)) :
    iteration.foldl (Loop.wake qt step message callsExit) l = l := by
  induction iteration with
  | nil => rfl
  | cons w iteration ih =>
    have hw : l.wake qt step message callsExit w = l := if_pos hthrown
    rw [List.foldl_cons, hw, ih]

/-- Of an iteration everything is taken up, unless something throws. -/
theorem took_iteration {l : Loop σ ε} (hfine : l.thrown.isSome = false)
    (iteration : List (Wakeup Address τ ι)) :
    Took qt step message callsExit (upTo (Wakeup.throws qt) iteration) l
      (iteration.foldl (Loop.wake qt step message callsExit) l) := by
  induction iteration generalizing l with
  | nil => exact took_nil hfine
  | cons w iteration ih =>
    have hw : Took qt step message callsExit [w] l _ := took_wake hfine w
    rw [List.foldl_cons, upTo]
    cases hthrows : w.throws qt with
    | true =>
      have hthrown : (l.wake qt step message callsExit w).thrown.isSome = true := by
        simp [hw.thrown, hthrows]
      rw [wake_of_thrown hthrown]
      exact hw
    | false =>
      have hlive : (l.wake qt step message callsExit w).thrown.isSome = false := by
        simp [hw.thrown, hthrows]
      exact hw.append (ih hlive) hlive

theorem exec_of_left {l : Loop σ ε} (hleft : (l.exiting || l.thrown.isSome) = true)
    (iterations : List (List (Wakeup Address τ ι))) :
    l.exec qt step message callsExit iterations = l := by
  cases iterations with
  | nil => rfl
  | cons iteration iterations => rw [Loop.exec, if_pos hleft]

theorem took_exec {l : Loop σ ε} (hfine : l.thrown.isSome = false) (hruns : l.exiting = false)
    (iterations : List (List (Wakeup Address τ ι))) :
    Took qt step message callsExit (taken qt callsExit iterations) l
      (l.exec qt step message callsExit iterations) := by
  induction iterations generalizing l with
  | nil => exact took_nil hfine
  | cons iteration iterations ih =>
    have hfirst : Took qt step message callsExit (upTo (Wakeup.throws qt) iteration) l _ :=
      took_iteration hfine iteration
    rw [Loop.exec, if_neg (by simp [hfine, hruns]), taken, upTo, List.flatten_cons, upTo_append]
    generalize iteration.foldl (Loop.wake qt step message callsExit) l = l' at hfirst ⊢
    cases hthrows : iteration.any (Wakeup.throws qt) with
    | true =>
      have hthrown : l'.thrown.isSome = true := by rw [hfirst.thrown, any_upTo, hthrows]
      rw [exec_of_left (by simp [hthrown]), if_pos rfl, List.append_nil]
      exact hfirst
    | false =>
      have hlive : l'.thrown.isSome = false := by rw [hfirst.thrown, any_upTo, hthrows]
      have hall : upTo (Wakeup.throws qt) iteration = iteration := upTo_eq_self hthrows
      have hexiting : l'.exiting = iteration.any (Wakeup.exits callsExit) := by
        rw [hfirst.exiting, hruns, hall, Bool.false_or]
      rw [if_neg Bool.false_ne_true]
      cases hexits : iteration.any (Wakeup.exits callsExit) with
      | true =>
        rw [exec_of_left (by simp [hexiting, hexits])]
        exact hfirst.append (took_nil hlive) hlive
      | false => exact hfirst.append (ih hlive (hexiting.trans hexits)) hlive

/-- How the loop came to be left with this value: by the exception of a malformed datagram, or by a
call of `exit`. -/
def Left (qt : QtText) (callsExit : ι → Bool) (iterations : List (List (Wakeup Address τ ι)))
    (code : ℤ) : Prop :=
  code = -1 ∧ (∃ pending, .readyRead pending ∈ taken qt callsExit iterations ∧
      ∃ entry ∈ pending, Malformed qt entry.1.data) ∨
    code = 0 ∧ (∃ e, .event e ∈ taken qt callsExit iterations ∧ callsExit e = true) ∧
      ∀ pending, .readyRead pending ∈ taken qt callsExit iterations →
        ∀ entry ∈ pending, ¬ Malformed qt entry.1.data

theorem left_of_result {iterations : List (List (Wakeup Address τ ι))} {s : σ} {code : ℤ}
    (h : ((Loop.start s).exec qt step message callsExit iterations).result = some code) :
    Left qt callsExit iterations code := by
  have htook : Took qt step message callsExit (taken qt callsExit iterations) (Loop.start s) _ :=
    took_exec rfl rfl iterations
  rw [Loop.result, htook.thrown, htook.exiting, Loop.start, Bool.false_or] at h
  split at h
  · rename_i hthrows
    obtain ⟨w, hw, hthrows⟩ := List.any_eq_true.mp hthrows
    obtain ⟨pending, rfl, hmalformed⟩ := (throws_iff w).mp hthrows
    exact .inl ⟨(Option.some.inj h).symm, pending, hw, hmalformed⟩
  · rename_i hfine
    split at h
    · rename_i hexits
      obtain ⟨w, hw, hexits⟩ := List.any_eq_true.mp hexits
      cases w with
      | event e =>
        refine .inr ⟨(Option.some.inj h).symm, ⟨e, hw, hexits⟩, ?_⟩
        intro pending hpending entry hentry hmalformed
        apply hfine
        exact List.any_eq_true.mpr
          ⟨_, hpending, (throws_iff _).mpr ⟨pending, rfl, entry, hentry, hmalformed⟩⟩
      | readyRead pending => cases hexits
    · cases h

end PacketLossUtils.NetworkCore
