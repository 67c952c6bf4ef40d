import PacketLossUtils.ForeignMessages
import PacketLossUtils.Lib.ExpectedNumber
import PacketLossUtils.ReceptionHistory
import PacketLossUtils.ServerRun

/-! The expected counter of a record and of the client over whole runs. -/
namespace PacketLossUtils

open Effect ExpectedNumber

variable {Address : Type} {uniqueId : UInt64} {c c' : ClientInfo Address}

/-! ### Records -/

namespace ClientInfo

/-- What an event is for the expected counter. -/
def input (e : Event) (c : ClientInfo Address) : Input :=
  match e with
  | .pingTick _ => .pass
  | .timeoutTick now => if Overdue now c then .lose else .pass
  | .receivedPing _ _ counter => .see counter

theorem expected_step (uniqueId : UInt64) (e : Event) (c : ClientInfo Address) :
    (c.step uniqueId e).1.messageCounterOtherNextExpected =
      next (input e c) c.messageCounterOtherNextExpected := by
  cases e with
  | pingTick skipMessage =>
    simp only [step, pingTick]
    split <;> [split; skip] <;> rfl
  | timeoutTick now =>
    simp only [step, timeoutTick, input]
    split <;> rfl
  | receivedPing now now' counter =>
    simp only [step, receivedPing, input, next]
    split
    · rfl
    · rename_i hseen
      exact Reception.expected_markSeen hseen

end ClientInfo

namespace Server

/-- The client is registered after every step. -/
def Stays (uniqueId : UInt64) (events : List (Event Address)) (s : Server Address) : Prop :=
  Trace.Along step (fun e s => uniqueId ∈ (s.step e).1.clientInfos) events s

/-- A run is a run of the record, in one part for each event of the server. -/
theorem run_events {events : List (Event Address)} {s : Server Address}
    (hc : s.clientInfos[uniqueId]? = some c) (hstays : Stays uniqueId events s)
    (hc' : (Trace.run step events s).1.clientInfos[uniqueId]? = some c') :
    ∃ parts, List.Forall₂ (Handles uniqueId) events parts ∧
      Trace.run (ClientInfo.step uniqueId) parts.flatten c =
        (c', about uniqueId (Trace.run step events s).2) := by
  induction events generalizing s c with
  | nil =>
    obtain rfl := Option.some.inj (hc.symm.trans hc')
    exact ⟨[], .nil, rfl⟩
  | cons e events ih =>
    obtain ⟨c₁, hc₁⟩ := TreeMap.mem_iff_exists.mp hstays.1
    obtain ⟨part, hhandles, hpart⟩ := step_events hc hc₁
    obtain ⟨parts, hparts, hrun⟩ := ih hc₁ hstays.2 hc'
    refine ⟨part :: parts, .cons hhandles hparts, ?_⟩
    rw [List.flatten_cons, Trace.run_append, hpart, hrun, Trace.run_cons, about_append]

end Server

/-! ### The client -/

namespace Client

theorem expected_pingRounds (now : ℤ) (skipMessage : Bool) (rounds : List ℕ)
    (c : Client Address) :
    (Trace.run (fun _ => pingRound now skipMessage) rounds c).1.messageCounterOtherNextExpected =
      c.messageCounterOtherNextExpected := by
  apply Trace.run_invariant (I := fun (c' : Client Address) _ =>
    c'.messageCounterOtherNextExpected = c.messageCounterOtherNextExpected) rfl
  intro i _ c' log hsame
  simp only [pingRound]
  split <;> exact hsame

variable [HostAddress Address]

/-- What an event is for the expected counter. -/
def input (e : Event Address) (c : Client Address) : Input :=
  match e with
  | .timeoutTimer now =>
    if now > c.timeOfLastMessageFromOther + c.interval.toNat + NetworkCore.maxTimeLateMs then .lose
    else .pass
  | .message _ address port (.ping m) => if FromServer address port c then .see m.counter else .pass
  | _ => .pass

theorem expected_receivedMessage (now : ℤ) (address : Address) (port : UInt16) (m : Message)
    (c : Client Address) :
    (c.receivedMessage now address port m).1.messageCounterOtherNextExpected =
      next (input (.message now address port m) c) c.messageCounterOtherNextExpected := by
  by_cases hserver : FromServer address port c
  · cases m with
    | ping m =>
      rw [receivedMessage_ping hserver.1 hserver.2, input, if_pos hserver, receivedPing, next]
      split
      · rfl
      · rename_i hseen
        exact Reception.expected_markSeen hseen
    | close m =>
      simp only [receivedMessage, input, next]
      split <;> [skip; split] <;> rfl
    | welcome m =>
      simp only [receivedMessage, input, next]
      split <;> rfl
  · rw [receivedMessage_stranger hserver]
    cases m with
    | ping m => rw [input, if_neg hserver, next]
    | _ => rfl

theorem expected_step (e : Event Address) (c : Client Address) :
    (c.step e).1.messageCounterOtherNextExpected =
      next (input e c) c.messageCounterOtherNextExpected := by
  cases e with
  | connect pending now now' =>
    simp only [step, connect, input, next]
    split <;> [skip; split] <;> rfl
  | pingTimer now => exact expected_pingRounds now _ _ c
  | timeoutTimer now =>
    simp only [step, onTimeoutTimer, input]
    split <;> rfl
  | sigInt =>
    simp only [step, onSigIntReceived, input, next]
    split <;> rfl
  | message now address port m => exact expected_receivedMessage now address port m c

end Client

/-! ### The law and its condition -/

/-- The last number there is, 2 ^ 64 - 1, is neither accepted nor given up. -/
def ClientInfo.NoWrap (e : Event) (c : ClientInfo Address) : Prop :=
  ExpectedNumber.NoWrap (input e c) c.messageCounterOtherNextExpected

instance (e : ClientInfo.Event) (c : ClientInfo Address) : Decidable (ClientInfo.NoWrap e c) :=
  inferInstanceAs (Decidable (ExpectedNumber.NoWrap _ _))

def ClientInfo.NeverBack (uniqueId : UInt64) (events : List Event) (c : ClientInfo Address) :
    Prop :=
  Trace.Along (step uniqueId) (fun e c => c.messageCounterOtherNextExpected ≤
    (c.step uniqueId e).1.messageCounterOtherNextExpected) events c ∧
  NeverAgain (step uniqueId) input ClientInfo.messageCounterOtherNextExpected events c

def Client.NoWrap [HostAddress Address] (e : Event Address) (c : Client Address) : Prop :=
  ExpectedNumber.NoWrap (input e c) c.messageCounterOtherNextExpected

instance [HostAddress Address] (e : Client.Event Address) (c : Client Address) :
    Decidable (Client.NoWrap e c) :=
  inferInstanceAs (Decidable (ExpectedNumber.NoWrap _ _))

def Client.NeverBack [HostAddress Address] (events : List (Event Address)) (c : Client Address) :
    Prop :=
  Trace.Along step (fun e c => c.messageCounterOtherNextExpected ≤
    (c.step e).1.messageCounterOtherNextExpected) events c ∧
  NeverAgain step input Client.messageCounterOtherNextExpected events c

/-- While a client is registered, a run of the server is a run of its record; and as long as the
events of a record, or of a client, leave the last number alone, the expected counter never goes
back and nothing settled is accepted again. When the last number is settled, 0 is expected
next. -/
theorem expectedCounter_neverBack [HostAddress Address] :
    (∀ (uniqueId : UInt64) (events : List (Server.Event Address)) (s : Server Address)
        (c c' : ClientInfo Address), s.clientInfos[uniqueId]? = some c →
      Server.Stays uniqueId events s →
      (Trace.run Server.step events s).1.clientInfos[uniqueId]? = some c' →
      ∃ parts, List.Forall₂ (Server.Handles uniqueId) events parts ∧
        Trace.run (ClientInfo.step uniqueId) parts.flatten c =
          (c', about uniqueId (Trace.run Server.step events s).2)) ∧
    (∀ (uniqueId : UInt64) (events : List ClientInfo.Event) (c₀ : ClientInfo Address),
      Trace.Along (ClientInfo.step uniqueId) ClientInfo.NoWrap events c₀ →
        ClientInfo.NeverBack uniqueId events c₀) ∧
    (∀ (address : Address) (port : UInt16) (interval : UInt32) (uniqueId : UInt64)
        (events : List (Client.Event Address)),
      Trace.Along Client.step Client.NoWrap events (.new address port interval uniqueId) →
        Client.NeverBack events (.new address port interval uniqueId)) ∧
    (∀ (uniqueId : UInt64) (e : ClientInfo.Event) (c : ClientInfo Address),
      ¬ ClientInfo.NoWrap e c →
        (c.step uniqueId e).1.messageCounterOtherNextExpected = 0 ∧
          ∃ last : UInt64, last.toNat = 2 ^ 64 - 1 ∧
            Settles last (ClientInfo.input e c) c.messageCounterOtherNextExpected) ∧
    (∀ (e : Client.Event Address) (c : Client Address), ¬ Client.NoWrap e c →
        (c.step e).1.messageCounterOtherNextExpected = 0 ∧
          ∃ last : UInt64, last.toNat = 2 ^ 64 - 1 ∧
            Settles last (Client.input e c) c.messageCounterOtherNextExpected) := by
  refine ⟨fun _ _ _ _ _ => Server.run_events, ?_, ?_, ?_, ?_⟩
  · intro uniqueId events c₀ h
    exact neverAgain (ClientInfo.expected_step uniqueId) h
  · intro address port interval uniqueId events h
    exact neverAgain Client.expected_step h
  · intro uniqueId e c h
    rw [ClientInfo.expected_step]
    exact wraps h
  · intro e c h
    rw [Client.expected_step]
    exact wraps h

/-- A ping with number 2 and then a timeout, on both sides. -/
theorem expectedCounter_neverBack_gap :
    ClientInfo.NeverBack 7 [.receivedPing 10 10 2, .timeoutTick 5000]
        (.new 1 9 250 0 : ClientInfo ℕ) ∧
      Client.NeverBack [.connect (fun _ => some 20) 0 0,
        .message 10 1 9 (.ping ⟨7, 2, .initialized⟩), .timeoutTimer 5000]
        (.new 1 9 250 7 : Client ℕ) := by
  refine ⟨expectedCounter_neverBack.2.1 7 _ _ ?_, expectedCounter_neverBack.2.2.1 1 9 250 7 _ ?_⟩
  · exact ⟨by decide +kernel, by decide +kernel, trivial⟩
  · exact ⟨by decide +kernel, by decide +kernel, by decide +kernel, trivial⟩

/-- Ping 0, and then one with the last number there is: 0 is expected again. -/
theorem not_neverBack_last :
    ¬ (∀ s : Server ℕ, Trace.Reachable Server.step (fun _ _ => True) .new s →
      ∀ (e : Server.Event ℕ) (uniqueId : UInt64) (c c' : ClientInfo ℕ),
        s.clientInfos[uniqueId]? = some c → (s.step e).1.clientInfos[uniqueId]? = some c' →
          c.messageCounterOtherNextExpected ≤ c'.messageCounterOtherNextExpected) ∧
    ¬ (∀ c : Client ℕ,
      Trace.Reachable Client.step (fun _ _ => True) (.new 1 9 250 7) c →
        ∀ e : Client.Event ℕ,
          c.messageCounterOtherNextExpected ≤ (c.step e).1.messageCounterOtherNextExpected) := by
  refine ⟨?_, ?_⟩
  · intro h
    let s : Server ℕ := ((Server.new.step (.message 0 0 1 9 (.welcome (.new 7 250)))).1.step
      (.message 10 10 1 9 (.ping ⟨7, 0, .initialized⟩))).1
    have hreach : Trace.Reachable Server.step (fun _ _ => True) .new s :=
      .step _ (.step _ .start trivial) trivial
    have hmem : (7 : UInt64) ∈ s.clientInfos := by decide +kernel
    obtain ⟨c, hc⟩ := TreeMap.mem_iff_exists.mp hmem
    have hone : s.clientInfos[(7 : UInt64)]?.map
        (fun c => c.messageCounterOtherNextExpected) = some 1 := by decide +kernel
    rw [hc] at hone
    have hone : c.messageCounterOtherNextExpected = 1 := Option.some.inj hone
    let last : ClientInfo.Event := .receivedPing 260 260 18446744073709551615
    have hlast : (s.step (.message 260 260 1 9
        (.ping ⟨7, 18446744073709551615, .initialized⟩))).1.clientInfos[(7 : UInt64)]? =
          some (c.step 7 last).1 := by
      rw [Server.step, Server.receivedMessage_ping hc, Std.ExtTreeMap.getElem?_insert_self]
      rfl
    have hback := h s hreach _ 7 c _ hc hlast
    rw [ClientInfo.expected_step, hone, ClientInfo.input] at hback
    revert hback
    decide
  · intro h
    let c : Client ℕ := (((Client.new 1 9 250 7).step (.connect (fun _ => some 20) 0 0)).1.step
      (.message 10 1 9 (.ping ⟨7, 0, .initialized⟩))).1
    have hreach : Trace.Reachable Client.step (fun _ _ => True) (.new 1 9 250 7) c :=
      .step _ (.step _ .start trivial) trivial
    have hone : c.messageCounterOtherNextExpected = 1 := by decide +kernel
    let last : Client.Event ℕ :=
      .message 260 1 9 (.ping ⟨7, 18446744073709551615, .initialized⟩)
    have hserver : Client.FromServer 1 9 c := by decide +kernel
    have hinput : Client.input last c = .see 18446744073709551615 := by
      rw [Client.input, if_pos hserver]
    have hback := h c hreach last
    clear_value c
    rw [Client.expected_step, hone, hinput] at hback
    revert hback
    decide

end PacketLossUtils
