import PacketLossUtils.ClientLifecycle
import PacketLossUtils.Lib.Simulation

/-! The client on a clock that is set differently. -/
namespace PacketLossUtils.Client

open Trace

variable {Address : Type} {d : ℤ} {c c' : Client Address}

/-- The client with other times. -/
def withTimes (last next : ℤ) (c : Client Address) : Client Address :=
  { c with
    timeOfLastMessageFromOther := last
    nextPingTime := next }

/-- The client on a clock that is `d` ahead. -/
def ahead (d : ℤ) (c : Client Address) : Client Address :=
  c.withTimes (c.timeOfLastMessageFromOther + d) (c.nextPingTime + d)

/-- The same event with the readings of that clock. -/
def Event.ahead (d : ℤ) : Event Address → Event Address
  | .connect pending now now' => .connect pending (now + d) (now' + d)
  | .pingTimer now => .pingTimer (now + d)
  | .timeoutTimer now => .timeoutTimer (now + d)
  | .sigInt => .sigInt
  | .message now address port m => .message (now + d) address port m

theorem pingRound_ahead (d now : ℤ) (skipMessage : Bool) (c : Client Address) :
    pingRound (now + d) skipMessage (c.ahead d) =
      ((pingRound now skipMessage c).1.ahead d, (pingRound now skipMessage c).2) := by
  cases skipMessage <;> simp [pingRound, ahead, withTimes, write, Int.add_right_comm]

theorem onPingTimer_ahead (d now : ℤ) (c : Client Address) :
    (c.ahead d).onPingTimer (now + d) = ((c.onPingTimer now).1.ahead d, (c.onPingTimer now).2) := by
  have hmissed : numPingsMissed (now + d) (c.nextPingTime + d) c.interval =
      numPingsMissed now c.nextPingTime c.interval := by
    rw [numPingsMissed, numPingsMissed, Int.add_sub_add_right]
  have hskip : skipMessage (now + d) (c.nextPingTime + d) = skipMessage now c.nextPingTime := by
    rw [skipMessage, skipMessage, Int.add_right_comm, decide_eq_decide]
    omega
  rw [onPingTimer, onPingTimer, show (c.ahead d).nextPingTime = c.nextPingTime + d from rfl,
    show (c.ahead d).interval = c.interval from rfl, hmissed, hskip]
  exact run_commute (fun _ => pingRound_ahead d now _) _ c

theorem onTimeoutTimer_ahead (d now : ℤ) (c : Client Address) :
    (c.ahead d).onTimeoutTimer (now + d) =
      ((c.onTimeoutTimer now).1.ahead d, (c.onTimeoutTimer now).2) := by
  have hlate : now + d > (c.ahead d).timeOfLastMessageFromOther + (c.ahead d).interval.toNat +
      NetworkCore.maxTimeLateMs ↔ now > c.timeOfLastMessageFromOther + c.interval.toNat +
        NetworkCore.maxTimeLateMs := by
    simp only [ahead, withTimes]
    omega
  rw [onTimeoutTimer, onTimeoutTimer]
  by_cases hover : now > c.timeOfLastMessageFromOther + c.interval.toNat +
      NetworkCore.maxTimeLateMs
  · rw [if_pos hover, if_pos (hlate.mpr hover)]
    simp only [ahead, withTimes, setReception, reception, Int.add_right_comm]
  · rw [if_neg hover, if_neg (hlate.not.mpr hover)]

theorem onSigIntReceived_withTimes (last next : ℤ) (c : Client Address) :
    (c.withTimes last next).onSigIntReceived =
      (c.onSigIntReceived.1.withTimes last next, c.onSigIntReceived.2) := by
  rw [onSigIntReceived, onSigIntReceived, show (c.withTimes last next).isConnected = c.isConnected
    from rfl]
  split <;> rfl

/-- Times before the connection are not read. -/
theorem connect_withTimes (pending : ℕ → Option ℕ) (last next now now' : ℤ)
    (c : Client Address) :
    (c.withTimes last next).connect pending (now + d) (now' + d) =
      if (c.connect pending now now').2 then
        (((c.connect pending now now').1.1.ahead d, (c.connect pending now now').1.2), true)
      else (((c.connect pending now now').1.1.withTimes last next,
        (c.connect pending now now').1.2), false) := by
  rw [connect, connect, show (c.withTimes last next).isConnected = c.isConnected from rfl]
  cases c.isConnected with
  | true => rfl
  | false =>
    cases (List.range 10).any fun i => decide ((pending i).getD 0 > 0) with
    | true => simp [ahead, withTimes, write, Int.add_right_comm]
    | false => rfl

variable [HostAddress Address]

/-- A message at most sets the time of the last message. -/
theorem receivedMessage_withTimes (now now' last next : ℤ) (address : Address) (port : UInt16)
    (m : Message) (c : Client Address) :
    let out := c.receivedMessage now address port m
    ∃ last', (c.withTimes last next).receivedMessage now' address port m =
        (out.1.withTimes last' next, out.2) ∧ out.1.nextPingTime = c.nextPingTime ∧
      (last' = last ∧ out.1.timeOfLastMessageFromOther = c.timeOfLastMessageFromOther ∨
        last' = now' ∧ out.1.timeOfLastMessageFromOther = now) := by
  simp only [receivedMessage]
  rw [show (c.withTimes last next).serverHostAddress = c.serverHostAddress from rfl,
    show (c.withTimes last next).serverPort = c.serverPort from rfl]
  split
  · exact ⟨last, rfl, rfl, .inl ⟨rfl, rfl⟩⟩
  · cases m with
    | ping m =>
      simp only [receivedPing]
      rw [show (c.withTimes last next).messageCounterOtherNextExpected =
        c.messageCounterOtherNextExpected from rfl]
      split
      · exact ⟨now', rfl, rfl, .inr ⟨rfl, rfl⟩⟩
      · exact ⟨now', rfl, rfl, .inr ⟨rfl, rfl⟩⟩
    | close m =>
      dsimp only
      rw [show (c.withTimes last next).uniqueId = c.uniqueId from rfl]
      split
      · exact ⟨last, rfl, rfl, .inl ⟨rfl, rfl⟩⟩
      · exact ⟨last, rfl, rfl, .inl ⟨rfl, rfl⟩⟩
    | welcome m => exact ⟨last, rfl, rfl, .inl ⟨rfl, rfl⟩⟩

theorem isConnected_receivedMessage (now : ℤ) (address : Address) (port : UInt16) (m : Message)
    (hidle : c.isConnected = false) :
    (c.receivedMessage now address port m).1.isConnected = false := by
  simp only [receivedMessage]
  split
  · exact hidle
  · cases m with
    | ping m => exact (receivedPing_sameTimers now m c).isConnected.trans hidle
    | close m =>
      dsimp only
      split
      · exact hidle
      · rfl
    | welcome m => exact hidle

/-! ### Runs -/

/-- `c'` is what `c` is on the other clock, up to times that are not read while it is not
connected. -/
structure OnClock (d : ℤ) (c c' : Client Address) : Prop where
  follow : TimersFollow c
  ahead : c' = c.ahead d ∨ c.isConnected = false ∧ ∃ last next, c' = c.withTimes last next

theorem onClock_message {last next : ℤ} (h : OnClock d c (c.withTimes last next)) (now : ℤ)
    (address : Address) (port : UInt16) (m : Message) :
    OnClock d (c.receivedMessage now address port m).1
        ((c.withTimes last next).receivedMessage (now + d) address port m).1 ∧
      ((c.withTimes last next).receivedMessage (now + d) address port m).2 =
        (c.receivedMessage now address port m).2 := by
  have hfollow := timersFollow_step h.follow (.message now address port m)
  obtain ⟨last', hout, hnext, htimes⟩ :=
    receivedMessage_withTimes now (now + d) last next address port m c
  rw [hout]
  refine ⟨⟨hfollow, ?_⟩, rfl⟩
  rcases h.ahead with hsame | ⟨hidle, -⟩
  · left
    have hlast : last = c.timeOfLastMessageFromOther + d :=
      congrArg timeOfLastMessageFromOther hsame
    have hnext' : next = c.nextPingTime + d := congrArg nextPingTime hsame
    have hlast' : last' = (c.receivedMessage now address port m).1.timeOfLastMessageFromOther +
        d := by
      rcases htimes with ⟨rfl, htime⟩ | ⟨rfl, htime⟩
      · rw [htime, hlast]
      · rw [htime]
    rw [ahead, hnext, hlast', hnext']
  · exact .inr ⟨isConnected_receivedMessage now address port m hidle, last', next, rfl⟩

theorem onClock_step {e : Event Address} (hfires : Fires e c) (h : OnClock d c c') :
    OnClock d (c.step e).1 (c'.step (e.ahead d)).1 ∧ (c'.step (e.ahead d)).2 = (c.step e).2 := by
  have hfollow := timersFollow_step h.follow e
  obtain ⟨last, next, rfl⟩ : ∃ last next, c' = c.withTimes last next := by
    rcases h.ahead with rfl | ⟨-, hidle⟩
    · exact ⟨_, _, rfl⟩
    · exact hidle
  have hahead : c.isConnected = true → c.withTimes last next = c.ahead d := by
    intro hconnected
    rcases h.ahead with hahead | ⟨hidle, -⟩
    · exact hahead
    · exact absurd (hconnected.symm.trans hidle) (by decide)
  cases e with
  | connect pending now now' =>
    have hout := connect_withTimes (d := d) pending last next now now' c
    have hstep : c.step (.connect pending now now') = (c.connect pending now now').1 := rfl
    have hstep' : (c.withTimes last next).step (Event.ahead d (.connect pending now now')) =
      ((c.withTimes last next).connect pending (now + d) (now' + d)).1 := rfl
    rw [hstep] at hfollow ⊢
    rw [hstep', hout]
    rcases connect_cases pending now now' c with ⟨hconnected, hcase⟩ | ⟨hidle, hcase⟩ | ⟨-, hcase⟩
    · rw [hcase] at hfollow ⊢
      exact ⟨⟨hfollow, .inl (hahead hconnected)⟩, rfl⟩
    · rw [hcase] at hfollow ⊢
      exact ⟨⟨hfollow, .inr ⟨hidle, last, next, rfl⟩⟩, rfl⟩
    · rw [hcase] at hfollow ⊢
      exact ⟨⟨hfollow, .inl rfl⟩, rfl⟩
  | pingTimer now =>
    have hconnected : c.isConnected = true := h.follow.timerPingActive.symm.trans hfires
    simp only [step, Event.ahead, hahead hconnected, onPingTimer_ahead]
    exact ⟨⟨hfollow, .inl rfl⟩, trivial⟩
  | timeoutTimer now =>
    have hconnected : c.isConnected = true := h.follow.timerTimeoutActive.symm.trans hfires
    simp only [step, Event.ahead, hahead hconnected, onTimeoutTimer_ahead]
    exact ⟨⟨hfollow, .inl rfl⟩, trivial⟩
  | sigInt =>
    have hidle : c.onSigIntReceived.1.isConnected = false := by
      rw [onSigIntReceived]
      split
      · rfl
      · rename_i hidle
        exact Bool.not_eq_true _ ▸ hidle
    simp only [step, Event.ahead, onSigIntReceived_withTimes]
    exact ⟨⟨hfollow, .inr ⟨hidle, last, next, rfl⟩⟩, trivial⟩
  | message now address port m => exact onClock_message h now address port m

/-- The client on the other clock follows. -/
theorem otherClock (d : ℤ) : Simulation (step : Event Address → _) step Fires (OnClock d)
    (fun e _ => [e.ahead d]) id id := by
  constructor
  · intro e c c' hfires h
    rw [run_singleton]
    exact (onClock_step hfires h).1
  · intro e c c' hfires h
    rw [run_singleton]
    exact (onClock_step hfires h).2.symm

/-- The clock may be set ahead or back by any amount: the client does the same, and ends with the
same statistics and counters. -/
theorem clock_moved (d : ℤ) {events : List (Event Address)} (server : Address) (port : UInt16)
    {interval : UInt32} (_hinterval : 0 < interval) (uniqueId : UInt64)
    (hfires : Along step Fires events (.new server port interval uniqueId)) :
    let out := run step events (.new server port interval uniqueId)
    let out' := run step (events.map (Event.ahead d)) (.new server port interval uniqueId)
    out'.2 = out.2 ∧ ∃ last next, out'.1 = out.1.withTimes last next := by
  have hnew : OnClock d (.new server port interval uniqueId : Client Address)
      (.new server port interval uniqueId) :=
    ⟨⟨rfl, rfl, rfl⟩, .inr ⟨rfl, -1, 0, rfl⟩⟩
  have hrun := (otherClock d).run (fun _ _ => rfl) (fun _ _ => rfl) hfires hnew
  rw [images_map] at hrun
  obtain ⟨⟨-, hahead⟩, hlog⟩ := hrun
  refine ⟨hlog.symm, ?_⟩
  rcases hahead with hahead | ⟨-, hahead⟩
  · exact ⟨_, _, hahead⟩
  · exact hahead

/-- An hour back, with a connection, two late pings, and two lost results. -/
theorem clock_moved_back :
    let events : List (Event ℕ) := [.connect (fun _ => some 5) 5000 5000, .pingTimer 5600,
      .timeoutTimer 5700, .message 5800 1 9 (.ping ⟨7, 1, .initialized⟩)]
    let out := run step events (.new 1 9 250 7)
    let out' := run step (events.map (Event.ahead (-3600000))) (.new 1 9 250 7)
    out'.2 = out.2 ∧ ∃ last next, out'.1 = out.1.withTimes last next :=
  clock_moved (-3600000) 1 9 (by decide) 7 ⟨trivial, by decide, by decide, trivial, trivial⟩

end PacketLossUtils.Client
