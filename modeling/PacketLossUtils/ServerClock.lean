import PacketLossUtils.Isolation

/-! The server on a clock that is set differently. -/
namespace PacketLossUtils

open Trace

variable {Address : Type} {d now nowStart : ℤ} {uniqueId k : UInt64} {c : ClientInfo Address}

namespace ClientInfo

/-- The record on a clock that is `d` ahead. Without a ping there is no time to move. -/
def ahead (d : ℤ) (c : ClientInfo Address) : ClientInfo Address :=
  { c with
    timeOfLastMessageFromOther :=
      if c.timeOfLastMessageFromOther = -1 then -1 else c.timeOfLastMessageFromOther + d
    timeOfLastRealMessageFromOther := c.timeOfLastRealMessageFromOther + d }

/-- The time of the last message is after the epoch on both clocks, if there was a message. -/
def Timed (d : ℤ) (c : ClientInfo Address) : Prop :=
  c.timeOfLastMessageFromOther = -1 ∨
    0 ≤ c.timeOfLastMessageFromOther ∧ 0 ≤ c.timeOfLastMessageFromOther + d

theorem ahead_new (address : Address) (port : UInt16) (interval : UInt32) (now : ℤ) :
    (ClientInfo.new address port interval now).ahead d = .new address port interval (now + d) := by
  simp [ahead, new]

theorem overdue_ahead (h : Timed d c) : Overdue (now + d) (c.ahead d) ↔ Overdue now c := by
  rcases h with hnone | ⟨hpos, hpos'⟩
  · simp [Overdue, ahead, hnone]
  · have hheard : c.timeOfLastMessageFromOther ≠ -1 := by omega
    simp only [Overdue, ahead, if_neg hheard]
    constructor
    · rintro ⟨-, hlate⟩
      exact ⟨hheard, by omega⟩
    · rintro ⟨-, hlate⟩
      exact ⟨by omega, by omega⟩

theorem dead_ahead : (c.ahead d).Dead (now + d) ↔ c.Dead now := by
  simp only [Dead, ahead]
  omega

theorem pingTick_ahead (skipMessage : Bool) (uniqueId : UInt64) (c : ClientInfo Address) :
    (c.ahead d).pingTick skipMessage uniqueId =
      ((c.pingTick skipMessage uniqueId).1.ahead d, (c.pingTick skipMessage uniqueId).2) := by
  by_cases hfull : (c.intervalCounter + 1) * Server.baseTimerInterval ≥ c.interval
  · have hfull' : ((c.ahead d).intervalCounter + 1) * Server.baseTimerInterval ≥
      (c.ahead d).interval := hfull
    simp only [pingTick, if_pos hfull, if_pos hfull']
    cases skipMessage <;> rfl
  · have hfull' : ¬ ((c.ahead d).intervalCounter + 1) * Server.baseTimerInterval ≥
      (c.ahead d).interval := hfull
    simp only [pingTick, if_neg hfull, if_neg hfull']
    rfl

theorem timeoutTick_ahead (h : Timed d c) (now : ℤ) (uniqueId : UInt64) :
    (c.ahead d).timeoutTick (now + d) uniqueId =
      ((c.timeoutTick now uniqueId).1.ahead d, (c.timeoutTick now uniqueId).2) := by
  by_cases hover : Overdue now c
  · obtain ⟨hheard, -⟩ := id hover
    have hpos : 0 ≤ c.timeOfLastMessageFromOther := by
      rcases h with hnone | ⟨hpos, -⟩
      · exact absurd hnone hheard
      · exact hpos
    have hnext : c.timeOfLastMessageFromOther + c.interval.toNat ≠ -1 := by omega
    rw [timeoutTick, if_pos ((overdue_ahead h).mpr hover), timeoutTick, if_pos hover]
    simp only [ahead, setReception, reception, if_neg hheard, if_neg hnext]
    rw [Int.add_right_comm]
  · rw [timeoutTick, if_neg ((overdue_ahead h).not.mpr hover), timeoutTick, if_neg hover]

theorem timed_timeoutTick (h : Timed d c) (now : ℤ) (uniqueId : UInt64) :
    Timed d (c.timeoutTick now uniqueId).1 := by
  rw [timeoutTick]
  split
  · rename_i hover
    obtain ⟨hheard, -⟩ := hover
    rcases h with hnone | ⟨hpos, hpos'⟩
    · exact absurd hnone hheard
    · refine .inr ⟨?_, ?_⟩ <;> simp only <;> omega
  · exact h

theorem receivedPing_ahead (hnow : now ≠ -1) (now' : ℤ) (uniqueId counter : UInt64)
    (c : ClientInfo Address) :
    (c.ahead d).receivedPing (now + d) (now' + d) uniqueId counter =
      ((c.receivedPing now now' uniqueId counter).1.ahead d,
        (c.receivedPing now now' uniqueId counter).2) := by
  have hexpected : (c.ahead d).messageCounterOtherNextExpected =
    c.messageCounterOtherNextExpected := rfl
  rw [receivedPing, receivedPing, hexpected]
  split
  · simp only [ahead, if_neg hnow]
  · simp only [ahead, setReception, reception, if_neg hnow]

end ClientInfo

namespace Server

variable {s t : Server Address} {e : Event Address} {events : List (Event Address)}

/-- The server on a clock that is `d` ahead. -/
def ahead (d : ℤ) (s : Server Address) : Server Address :=
  { s with
    clientInfos := s.clientInfos.map fun _ c => c.ahead d
    nextPingTime := s.nextPingTime + d }

/-- The same event with the readings of that clock. -/
def Event.ahead (d : ℤ) : Event Address → Event Address
  | .pingTimer now => .pingTimer (now + d)
  | .timeoutTimer now nowStart => .timeoutTimer (fun i => now i + d) (nowStart + d)
  | .sigInt => .sigInt
  | .message now now' address port m => .message (now + d) (now' + d) address port m

/-- A message is received after the epoch on both clocks. -/
def AfterEpoch (d : ℤ) (e : Event Address) : Prop :=
  match e with
  | .message now _ _ _ _ => 0 ≤ now ∧ 0 ≤ now + d
  | _ => True

def Timed (d : ℤ) (s : Server Address) : Prop :=
  ∀ (k : UInt64) (c : ClientInfo Address), s.clientInfos[k]? = some c → c.Timed d

theorem timed_step (h : Timed d s) (he : AfterEpoch d e) : Timed d (s.step e).1 := by
  intro k c' hc'
  cases hc : s.clientInfos[k]? with
  | none =>
    obtain ⟨-, -, hregister⟩ := step_unknown (e := e) hc
    obtain ⟨_, _, _, _, _, hnew⟩ := hregister c' hc'
    rw [hnew]
    exact .inl rfl
  | some c =>
    refine step_keeps hc hc' (h k c hc) ?_
    intro events hhandles x hx c htimed
    rcases hhandles.of_mem hx with ⟨_, skipMessage, _, rfl⟩ | ⟨_, _, i, _, rfl⟩ |
      ⟨now, now', _, _, m, rfl, _, rfl⟩
    · simp only [ClientInfo.step, ClientInfo.pingTick]
      split <;> [split; skip] <;> exact htimed
    · exact ClientInfo.timed_timeoutTick htimed _ k
    · rw [ClientInfo.step, ClientInfo.receivedPing]
      split <;> exact .inr he

theorem Timed.erase (h : Timed d s) (k : UInt64) :
    Timed d { s with clientInfos := s.clientInfos.erase k } := by
  intro k' c hc
  rw [TreeMap.getElem?_erase] at hc
  split at hc
  · cases hc
  · exact h k' c hc

theorem Timed.insert (h : Timed d s) (k : UInt64) (hc : c.Timed d) :
    Timed d { s with clientInfos := s.clientInfos.insert k c } := by
  intro k' c' hc'
  rw [TreeMap.getElem?_insert] at hc'
  split at hc'
  · obtain rfl := Option.some.inj hc'
    exact hc
  · exact h k' c' hc'

/-! ### Each handler -/

theorem getElem?_ahead (d : ℤ) (s : Server Address) (k : UInt64) :
    (s.ahead d).clientInfos[k]? = s.clientInfos[k]?.map (ClientInfo.ahead d) :=
  Std.ExtTreeMap.getElem?_map

theorem startOrStopTimersIfNeeded_ahead (d nowStart : ℤ) (s : Server Address) :
    startOrStopTimersIfNeeded (nowStart + d) (s.ahead d) =
      (startOrStopTimersIfNeeded nowStart s).ahead d := by
  have hsize : (s.ahead d).clientInfos.size = s.clientInfos.size := Std.ExtTreeMap.size_map
  rw [startOrStopTimersIfNeeded, startOrStopTimersIfNeeded, hsize]
  split
  · rw [show (s.ahead d).timerPingActive = s.timerPingActive from rfl]
    split
    · simp only [ahead, Int.add_right_comm]
    · rfl
  · rfl

theorem pingRound_ahead (d now : ℤ) (skipMessage : Bool) (s : Server Address) :
    pingRound (now + d) skipMessage (s.ahead d) =
      ((pingRound now skipMessage s).1.ahead d, (pingRound now skipMessage s).2) := by
  simp only [pingRound, ahead, Std.ExtTreeMap.map_map, Std.ExtTreeMap.toList_map,
    List.flatMap_map, ClientInfo.pingTick_ahead, Int.add_right_comm]

theorem onPingTimer_ahead (d now : ℤ) (s : Server Address) :
    (s.ahead d).onPingTimer (now + d) = ((s.onPingTimer now).1.ahead d, (s.onPingTimer now).2) := by
  have hmissed : numPingsMissed (now + d) (s.nextPingTime + d) =
      numPingsMissed now s.nextPingTime := by
    rw [numPingsMissed, numPingsMissed, Int.add_sub_add_right]
  have hskip : skipMessage (now + d) (s.nextPingTime + d) = skipMessage now s.nextPingTime := by
    rw [skipMessage, skipMessage, Int.add_right_comm, decide_eq_decide]
    omega
  rw [onPingTimer, onPingTimer, show (s.ahead d).nextPingTime = s.nextPingTime + d from rfl,
    hmissed, hskip]
  exact run_commute (fun _ => pingRound_ahead d now _) _ s

theorem timeoutLoop_ahead
    {restart restart' : Server Address → Server Address × List (Effect Address)}
    (hrestart : ∀ s, Timed d s → restart' (s.ahead d) = ((restart s).1.ahead d, (restart s).2))
    (now nowStart : ℤ) (rest : List (UInt64 × ClientInfo Address))
    (hrest : ∀ e ∈ rest, e.2.Timed d) (h : Timed d s) :
    let out := timeoutLoop restart now nowStart rest s
    timeoutLoop restart' (now + d) (nowStart + d) (rest.map fun e => (e.1, e.2.ahead d))
      (s.ahead d) = (out.1.ahead d, out.2) := by
  induction rest generalizing s with
  | nil => rfl
  | cons entry rest ih =>
    obtain ⟨k, c⟩ := entry
    obtain ⟨hc, hrest⟩ := List.forall_mem_cons.mp hrest
    have htick := ClientInfo.timeoutTick_ahead hc now k
    rw [List.map_cons]
    by_cases hdead : (c.timeoutTick now k).1.Dead now
    · have hdead' : ((c.ahead d).timeoutTick (now + d) k).1.Dead (now + d) := by
        rw [htick]
        exact ClientInfo.dead_ahead.mpr hdead
      have herase : { s.ahead d with clientInfos := (s.ahead d).clientInfos.erase k } =
          ({ s with clientInfos := s.clientInfos.erase k } : Server Address).ahead d := by
        simp only [ahead, TreeMap.map_erase]
      rw [timeoutLoop_dead hdead, timeoutLoop_dead hdead', herase, hrestart _ (h.erase k), htick]
      simp only [startOrStopTimersIfNeeded_ahead]
      rfl
    · have hdead' : ¬ ((c.ahead d).timeoutTick (now + d) k).1.Dead (now + d) := by
        rw [htick]
        exact ClientInfo.dead_ahead.not.mpr hdead
      have hinsert : { s.ahead d with clientInfos :=
          (s.ahead d).clientInfos.insert k ((c.timeoutTick now k).1.ahead d) } =
            ({ s with clientInfos := s.clientInfos.insert k (c.timeoutTick now k).1 } :
              Server Address).ahead d := by
        simp only [ahead, TreeMap.map_insert]
      rw [timeoutLoop_alive hdead, timeoutLoop_alive hdead', htick]
      simp only [hinsert]
      rw [ih hrest (h.insert k (ClientInfo.timed_timeoutTick hc now k))]

theorem timeoutSweep_ahead (depth : ℕ) (now : ℕ → ℤ) (nowStart : ℤ) (h : Timed d s) :
    timeoutSweep depth (fun i => now i + d) (nowStart + d) (s.ahead d) =
      ((timeoutSweep depth now nowStart s).1.ahead d, (timeoutSweep depth now nowStart s).2) := by
  induction depth generalizing now s with
  | zero => rfl
  | succ depth ih =>
    have hlist : (s.ahead d).clientInfos.toList =
        s.clientInfos.toList.map fun e => (e.1, e.2.ahead d) := Std.ExtTreeMap.toList_map
    rw [timeoutSweep, timeoutSweep, hlist]
    refine timeoutLoop_ahead (fun s h => ih _ h) (now 0) nowStart _ ?_ h
    intro e he
    exact h e.1 e.2 (Std.ExtTreeMap.mem_toList_iff_getElem?_eq_some.mp he)

theorem onTimeoutTimer_ahead (now : ℕ → ℤ) (nowStart : ℤ) (h : Timed d s) :
    (s.ahead d).onTimeoutTimer (fun i => now i + d) (nowStart + d) =
      ((s.onTimeoutTimer now nowStart).1.ahead d, (s.onTimeoutTimer now nowStart).2) := by
  have hsize : (s.ahead d).clientInfos.size = s.clientInfos.size := Std.ExtTreeMap.size_map
  rw [onTimeoutTimer, onTimeoutTimer, hsize]
  exact timeoutSweep_ahead _ now nowStart h

theorem onSigIntReceived_ahead (d : ℤ) (s : Server Address) :
    (s.ahead d).onSigIntReceived = (s.onSigIntReceived.1.ahead d, s.onSigIntReceived.2) := by
  have hclose : (s.ahead d).closeClients = s.closeClients := by
    simp only [closeClients, ahead, Std.ExtTreeMap.toList_map, List.map_map]
    rfl
  rw [onSigIntReceived, onSigIntReceived, hclose]
  simp [startOrStopTimersIfNeeded, ahead]

theorem receivedMessage_ahead (now now' : ℤ) (hnow : now ≠ -1) (address : Address)
    (port : UInt16) (m : Message) (s : Server Address) :
    let out := s.receivedMessage now now' address port m
    (s.ahead d).receivedMessage (now + d) (now' + d) address port m = (out.1.ahead d, out.2) := by
  have hmem : ∀ k, k ∈ (s.ahead d).clientInfos ↔ k ∈ s.clientInfos := fun k =>
    Std.ExtTreeMap.mem_map
  cases m with
  | ping m =>
    cases hc : s.clientInfos[m.uniqueId]? with
    | some c =>
      have hc' : (s.ahead d).clientInfos[m.uniqueId]? = some (c.ahead d) := by
        rw [getElem?_ahead, hc]
        rfl
      simp only [receivedMessage_ping hc, receivedMessage_ping hc',
        ClientInfo.receivedPing_ahead hnow]
      simp only [ahead, TreeMap.map_insert]
    | none =>
      have hc' : (s.ahead d).clientInfos[m.uniqueId]? = none := by
        rw [getElem?_ahead, hc]
        rfl
      simp only [receivedMessage_ping_none hc, receivedMessage_ping_none hc']
  | welcome m =>
    simp only [receivedMessage, hmem]
    split
    · rfl
    · split
      · rfl
      · rw [← startOrStopTimersIfNeeded_ahead]
        simp only [ahead, TreeMap.map_insert, ClientInfo.ahead_new]
  | close m =>
    simp only [receivedMessage_close, ahead, TreeMap.map_erase]

theorem step_ahead (h : Timed d s) (he : AfterEpoch d e) :
    (s.ahead d).step (e.ahead d) = ((s.step e).1.ahead d, (s.step e).2) := by
  cases e with
  | pingTimer now => exact onPingTimer_ahead d now s
  | timeoutTimer now nowStart => exact onTimeoutTimer_ahead now nowStart h
  | sigInt => exact onSigIntReceived_ahead d s
  | message now now' address port m =>
    have hnow : now ≠ -1 := by
      obtain ⟨hpos, -⟩ := he
      omega
    exact receivedMessage_ahead now now' hnow address port m s

/-! ### Without clients -/

/-- No client is registered and the timers are stopped. -/
structure Idle (s : Server Address) : Prop where
  clientInfos : s.clientInfos = ∅
  timerPingActive : s.timerPingActive = false

theorem onPingTimer_empty (hempty : s.clientInfos = ∅) (now : ℤ) :
    s.onPingTimer now = ({ s with nextPingTime := now + 250 }, []) := by
  have hround : ∀ (late : Bool) {s : Server Address}, s.clientInfos = ∅ →
      pingRound now late s = ({ s with nextPingTime := now + 250 }, []) := by
    intro late s hempty
    simp [pingRound, hempty, baseTimerInterval]
  have hrounds : ∀ (late : Bool) (rounds : List ℕ) (s : Server Address), s.clientInfos = ∅ →
      s.nextPingTime = now + 250 → run (fun _ => pingRound now late) rounds s = (s, []) := by
    intro late rounds
    induction rounds with
    | nil => exact fun _ _ _ => rfl
    | cons i rounds ih =>
      intro s hempty hnext
      have hsame : ({ s with nextPingTime := now + 250 } : Server Address) = s := by rw [← hnext]
      rw [run_cons, hround late hempty, hsame, ih s hempty hnext]
      rfl
  have hrest := hrounds (skipMessage now s.nextPingTime)
    ((List.range ((now - s.nextPingTime).natAbs / baseTimerInterval.toNat)).map Nat.succ)
    { s with nextPingTime := now + 250 } hempty rfl
  rw [onPingTimer, numPingsMissed, List.range_succ_eq_map, run_cons, hround _ hempty]
  exact hrest

/-- When the next ping would be due makes no difference until the timers start. -/
theorem idle_step (h : Idle s) (next : ℤ) (e : Event Address) :
    step e { s with nextPingTime := next } = step e s ∨
      Idle (s.step e).1 ∧ step e { s with nextPingTime := next } =
        ({ (s.step e).1 with nextPingTime := next }, (s.step e).2) := by
  obtain ⟨hempty, hstopped⟩ := id h
  have hnone : ∀ k : UInt64, s.clientInfos[k]? = none := fun k => by rw [hempty]; rfl
  cases e with
  | pingTimer now =>
    left
    have hnext := onPingTimer_empty (s := { s with nextPingTime := next }) hempty now
    rw [step, step, onPingTimer_empty hempty, hnext]
  | timeoutTimer now nowStart =>
    right
    have hsweep : ∀ s : Server Address, s.clientInfos = ∅ →
        s.onTimeoutTimer now nowStart = (s, []) := by
      intro s hempty
      have hlist : s.clientInfos.toList = [] := by simp [hempty]
      rw [onTimeoutTimer_eq, hlist, timeoutLoop]
    have hnext := hsweep { s with nextPingTime := next } hempty
    rw [step, step, hsweep s hempty, hnext]
    exact ⟨h, rfl⟩
  | sigInt =>
    right
    simp [step, onSigIntReceived, startOrStopTimersIfNeeded, closeClients, hempty]
    exact ⟨rfl, rfl⟩
  | message now now' address port m =>
    cases m with
    | ping m =>
      right
      have hstep : step (.message now now' address port (.ping m)) s = _ :=
        receivedMessage_ping_none (hnone m.uniqueId)
      have hstep' : step (.message now now' address port (.ping m)) { s with
          nextPingTime := next } = _ := receivedMessage_ping_none (hnone m.uniqueId)
      rw [hstep, hstep']
      exact ⟨h, rfl⟩
    | welcome m =>
      simp only [step, receivedMessage]
      split
      · exact .inr ⟨h, rfl⟩
      · split
        · exact .inr ⟨h, rfl⟩
        · left
          simp [startOrStopTimersIfNeeded, hstopped, Std.ExtTreeMap.size_insert, hempty]
    | close m =>
      right
      have hunknown : m.uniqueId ∉ s.clientInfos := by
        rw [hempty]
        exact Std.ExtTreeMap.not_mem_empty
      simp only [step, receivedMessage_close, TreeMap.erase_of_not_mem hunknown]
      exact ⟨h, trivial⟩

/-! ### Runs -/

/-- `t` is what `s` is on the other clock, except for a time that is read nowhere. -/
structure OnClock (d : ℤ) (s t : Server Address) : Prop where
  timed : Timed d s
  ahead : t = s.ahead d ∨ Idle s ∧ ∃ next, t = { s.ahead d with nextPingTime := next }

theorem idle_ahead : Idle (s.ahead d) ↔ Idle s := by
  constructor
  · rintro ⟨hempty, hstopped⟩
    exact ⟨Std.ExtTreeMap.map_eq_empty_iff.mp hempty, hstopped⟩
  · rintro ⟨hempty, hstopped⟩
    exact ⟨Std.ExtTreeMap.map_eq_empty_iff.mpr hempty, hstopped⟩

theorem onClock_step (h : OnClock d s t) (he : AfterEpoch d e) :
    OnClock d (s.step e).1 (t.step (e.ahead d)).1 ∧ (t.step (e.ahead d)).2 = (s.step e).2 := by
  obtain ⟨htimed, rfl | ⟨hidle, next, rfl⟩⟩ := h
  · rw [step_ahead htimed he]
    exact ⟨⟨timed_step htimed he, .inl rfl⟩, rfl⟩
  · rcases idle_step (idle_ahead.mpr hidle) next (e.ahead d) with hsame | ⟨hidle', hstep⟩
    · rw [hsame, step_ahead htimed he]
      exact ⟨⟨timed_step htimed he, .inl rfl⟩, rfl⟩
    · rw [step_ahead htimed he] at hidle' hstep
      rw [hstep]
      exact ⟨⟨timed_step htimed he, .inr ⟨idle_ahead.mp hidle', next, rfl⟩⟩, rfl⟩

/-- The server on the other clock follows. -/
theorem otherClock (d : ℤ) : Simulation (step : Event Address → _) step
    (fun e _ => AfterEpoch d e) (OnClock d) (fun e _ => [e.ahead d]) id id := by
  constructor
  · intro e s t he h
    rw [run_singleton]
    exact (onClock_step h he).1
  · intro e s t he h
    rw [run_singleton]
    exact (onClock_step h he).2.symm

/-- The clock may be set ahead or back by any amount: the server does the same, and its records
differ in their times only. -/
theorem clock_offset (d : ℤ) (events : List (Event Address))
    (hepoch : ∀ e ∈ events, AfterEpoch d e) :
    let out := run step events .new
    let out' := run step (events.map (Event.ahead d)) .new
    out'.2 = out.2 ∧
      ∀ k : UInt64, out'.1.clientInfos[k]? = out.1.clientInfos[k]?.map (ClientInfo.ahead d) := by
  have hadmits : ∀ (events : List (Event Address)) s, (∀ e ∈ events, AfterEpoch d e) →
      Along step (fun e _ => AfterEpoch d e) events s := by
    intro events
    induction events with
    | nil => exact fun _ _ => trivial
    | cons e events ih =>
      intro s hepoch
      obtain ⟨he, hepoch⟩ := List.forall_mem_cons.mp hepoch
      exact ⟨he, ih _ hepoch⟩
  have hnew : OnClock d (.new : Server Address) .new := by
    refine ⟨by intro k c hc; simp [new] at hc, .inr ⟨⟨rfl, rfl⟩, 0, ?_⟩⟩
    simp [new, ahead]
  have hrun := (otherClock d).run (fun _ _ => rfl) (fun _ _ => rfl) (hadmits events _ hepoch) hnew
  rw [images_map] at hrun
  obtain ⟨⟨-, hahead⟩, hlog⟩ := hrun
  refine ⟨hlog.symm, ?_⟩
  intro k
  rw [← getElem?_ahead]
  rcases hahead with hahead | ⟨-, next, hahead⟩
  · rw [hahead]
  · rw [hahead]

/-- An hour ahead, with a client that registers, is pinged, and pings once. -/
theorem clock_offset_hour :
    let events : List (Event ℕ) := [.message 5 5 1 9 (.welcome (.new 7 250)), .pingTimer 255,
      .message 300 300 1 9 (.ping ⟨7, 0, .initialized⟩), .timeoutTimer (fun _ => 700) 700]
    let out := run step events .new
    let out' := run step (events.map (Event.ahead 3600000)) .new
    out'.2 = out.2 ∧ ∀ k : UInt64,
      out'.1.clientInfos[k]? = out.1.clientInfos[k]?.map (ClientInfo.ahead 3600000) :=
  clock_offset 3600000 _ (by simp [AfterEpoch])

end Server

end PacketLossUtils
