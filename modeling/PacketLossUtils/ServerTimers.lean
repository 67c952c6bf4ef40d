import PacketLossUtils.ServerRecord

/-! When the server's timers run. -/
namespace PacketLossUtils.Server

variable {Address : Type} {s s' : Server Address}

/-- Both timers run if a client is registered, and neither runs if there is none. -/
structure TimersFollow (s : Server Address) : Prop where
  ping : s.timerPingActive = true ↔ s.clientInfos ≠ ∅
  timeout : s.timerTimeoutActive = true ↔ s.clientInfos ≠ ∅

/-- The timers are started and stopped together. -/
def TimersAgree (s : Server Address) : Prop := s.timerTimeoutActive = s.timerPingActive

theorem TimersFollow.agree (h : TimersFollow s) : TimersAgree s :=
  Bool.eq_iff_iff.mpr (h.timeout.trans h.ping.symm)

theorem TimersFollow.of_eq (h : TimersFollow s) (hping : s'.timerPingActive = s.timerPingActive)
    (htimeout : s'.timerTimeoutActive = s.timerTimeoutActive)
    (hempty : s'.clientInfos = ∅ ↔ s.clientInfos = ∅) : TimersFollow s' := by
  refine ⟨?_, ?_⟩
  · rw [hping]
    exact h.ping.trans (not_congr hempty).symm
  · rw [htimeout]
    exact h.timeout.trans (not_congr hempty).symm

theorem size_pos_iff : 0 < s.clientInfos.size ↔ s.clientInfos ≠ ∅ := by
  rw [Nat.pos_iff_ne_zero, ne_eq, ← Std.ExtTreeMap.eq_empty_iff_size_eq_zero]

/-- The helper looks at the ping timer only, and that is enough while the timers agree. -/
theorem timersFollow_startOrStopTimersIfNeeded (nowStart : ℤ) (h : TimersAgree s) :
    TimersFollow (startOrStopTimersIfNeeded nowStart s) := by
  rw [TimersAgree] at h
  by_cases hsize : 0 < s.clientInfos.size
  · have hne := size_pos_iff.mp hsize
    cases hactive : s.timerPingActive with
    | true => constructor <;> simp [startOrStopTimersIfNeeded, hsize, hactive, h, hne]
    | false => constructor <;> simp [startOrStopTimersIfNeeded, hsize, hactive, hne]
  · have hempty := Std.ExtTreeMap.eq_empty_iff_size_eq_zero.mpr (Nat.eq_zero_of_not_pos hsize)
    constructor <;> simp [startOrStopTimersIfNeeded, hempty]

theorem timersAgree_startOrStopTimersIfNeeded (nowStart : ℤ) (h : TimersAgree s) :
    TimersAgree (startOrStopTimersIfNeeded nowStart s) :=
  (timersFollow_startOrStopTimersIfNeeded nowStart h).agree

/-! ### The ping timer -/

theorem timersFollow_onPingTimer (h : TimersFollow s) (now : ℤ) :
    TimersFollow (s.onPingTimer now).1 := by
  rw [onPingTimer]
  generalize List.range _ = rounds
  generalize skipMessage now s.nextPingTime = late
  induction rounds generalizing s with
  | nil => exact h
  | cons i rounds ih =>
    apply ih
    refine h.of_eq rfl rfl ?_
    rw [Std.ExtTreeMap.eq_empty_iff_size_eq_zero, Std.ExtTreeMap.eq_empty_iff_size_eq_zero]
    simp only [pingRound, Std.ExtTreeMap.size_map]

/-! ### The timeout timer -/

section Loop

variable {restart : Server Address → Server Address × List (Effect Address)} {now nowStart : ℤ}

theorem timersAgree_timeoutLoop (hrestart : ∀ s, TimersAgree s → TimersAgree (restart s).1)
    (rest : List (UInt64 × ClientInfo Address)) (h : TimersAgree s) :
    TimersAgree (timeoutLoop restart now nowStart rest s).1 := by
  induction rest generalizing s with
  | nil => exact h
  | cons e rest ih =>
    obtain ⟨k, c⟩ := e
    by_cases hdead : (c.timeoutTick now k).1.Dead now
    · rw [timeoutLoop_dead hdead]
      exact timersAgree_startOrStopTimersIfNeeded nowStart (hrestart _ h)
    · rw [timeoutLoop_alive hdead]
      exact ih h

/-- A loop that removes a client ends in the helper; one that does not keeps all keys. -/
theorem timersFollow_timeoutLoop (hrestart : ∀ s, TimersAgree s → TimersAgree (restart s).1)
    (rest : List (UInt64 × ClientInfo Address)) (hrest : ∀ e ∈ rest, e.1 ∈ s.clientInfos)
    (h : TimersFollow s) : TimersFollow (timeoutLoop restart now nowStart rest s).1 := by
  induction rest generalizing s with
  | nil => exact h
  | cons e rest ih =>
    obtain ⟨k, c⟩ := e
    have hk : k ∈ s.clientInfos := hrest (k, c) List.mem_cons_self
    by_cases hdead : (c.timeoutTick now k).1.Dead now
    · rw [timeoutLoop_dead hdead]
      apply timersFollow_startOrStopTimersIfNeeded
      exact hrestart _ h.agree
    · rw [timeoutLoop_alive hdead]
      apply ih
      · intro e he
        exact Std.ExtTreeMap.mem_insert.mpr (.inr (hrest e (List.mem_cons_of_mem _ he)))
      · refine h.of_eq rfl rfl ?_
        rw [Std.ExtTreeMap.eq_empty_iff_size_eq_zero, Std.ExtTreeMap.eq_empty_iff_size_eq_zero,
          TreeMap.size_insert_of_mem hk]

end Loop

theorem timersAgree_timeoutSweep (depth : ℕ) (now : ℕ → ℤ) (nowStart : ℤ) (h : TimersAgree s) :
    TimersAgree (timeoutSweep depth now nowStart s).1 := by
  induction depth generalizing now s with
  | zero => exact h
  | succ depth ih => exact timersAgree_timeoutLoop (fun s hs => ih _ hs) _ h

theorem timersFollow_onTimeoutTimer (h : TimersFollow s) (now : ℕ → ℤ) (nowStart : ℤ) :
    TimersFollow (s.onTimeoutTimer now nowStart).1 := by
  rw [onTimeoutTimer_eq]
  apply timersFollow_timeoutLoop _ _ _ h
  · intro s hs
    exact timersAgree_timeoutSweep _ _ nowStart hs
  · intro e he
    exact TreeMap.mem_of_mem_toList he

/-! ### Messages -/

/-- The one removal after which the helper is not called: a Close of the only client. -/
def ClosesLast (e : Event Address) (s : Server Address) : Prop :=
  ∃ now now' address port m, e = .message now now' address port (.close m) ∧
    m.uniqueId ∈ s.clientInfos ∧ s.clientInfos.size = 1

theorem timersFollow_ping (h : TimersFollow s) (now now' : ℤ) (address : Address)
    (port : UInt16) (m : PingMessage) :
    TimersFollow (s.receivedMessage now now' address port (.ping m)).1 := by
  cases hc : s.clientInfos[m.uniqueId]? with
  | some c =>
    have hmem : m.uniqueId ∈ s.clientInfos := TreeMap.mem_iff_exists.mpr ⟨c, hc⟩
    rw [receivedMessage_ping hc]
    refine h.of_eq rfl rfl ?_
    rw [Std.ExtTreeMap.eq_empty_iff_size_eq_zero, Std.ExtTreeMap.eq_empty_iff_size_eq_zero,
      TreeMap.size_insert_of_mem hmem]
  | none =>
    rw [receivedMessage_ping_none hc]
    exact h

theorem timersFollow_welcome (h : TimersFollow s) (now now' : ℤ) (address : Address)
    (port : UInt16) (m : WelcomeMessage) :
    TimersFollow (s.receivedMessage now now' address port (.welcome m)).1 := by
  rcases receivedMessage_welcome_cases now now' address port m s with
    ⟨-, hignored⟩ | ⟨-, -, hregistered⟩
  · rw [hignored]
    exact h
  · rw [hregistered]
    exact timersFollow_startOrStopTimersIfNeeded now' h.agree

theorem timersFollow_close_iff (h : TimersFollow s) (now now' : ℤ) (address : Address)
    (port : UInt16) (m : CloseMessage) :
    TimersFollow (s.receivedMessage now now' address port (.close m)).1 ↔
      ¬ (m.uniqueId ∈ s.clientInfos ∧ s.clientInfos.size = 1) := by
  rw [receivedMessage_close]
  by_cases hmem : m.uniqueId ∈ s.clientInfos
  · have hne : s.clientInfos ≠ ∅ := by
      intro hempty
      rw [hempty] at hmem
      exact Std.ExtTreeMap.not_mem_empty hmem
    have herase : (s.clientInfos.erase m.uniqueId).size = s.clientInfos.size - 1 := by
      rw [Std.ExtTreeMap.size_erase, if_pos (Std.ExtTreeMap.contains_iff_mem.mpr hmem)]
    have hpos := size_pos_iff.mpr hne
    have hlast : s.clientInfos.erase m.uniqueId = ∅ ↔ s.clientInfos.size = 1 := by
      rw [Std.ExtTreeMap.eq_empty_iff_size_eq_zero, herase]
      omega
    constructor
    · rintro hfollow ⟨-, hone⟩
      exact hfollow.ping.mp (h.ping.mpr hne) (hlast.mpr hone)
    · intro hmore
      refine h.of_eq rfl rfl ?_
      rw [hlast]
      exact ⟨fun hone => absurd ⟨hmem, hone⟩ hmore, fun hempty => absurd hempty hne⟩
  · rw [TreeMap.erase_of_not_mem hmem]
    exact ⟨fun _ hlast => hmem hlast.1, fun _ => h⟩

/-- From a state in which the timers follow the clients, only a Close of the last client leads to
one in which they do not. -/
theorem timersFollow_step_iff (h : TimersFollow s) (e : Event Address) :
    TimersFollow (s.step e).1 ↔ ¬ ClosesLast e s := by
  have hother : (∀ now now' address port m, e ≠ .message now now' address port (.close m)) →
      ¬ ClosesLast e s := by
    rintro hne ⟨now, now', address, port, m, he, -⟩
    exact hne now now' address port m he
  cases e with
  | pingTimer now => exact iff_of_true (timersFollow_onPingTimer h now) (hother (by simp))
  | timeoutTimer now nowStart =>
    exact iff_of_true (timersFollow_onTimeoutTimer h now nowStart) (hother (by simp))
  | sigInt =>
    refine iff_of_true ?_ (hother (by simp))
    exact timersFollow_startOrStopTimersIfNeeded (s := { s with clientInfos := ∅ }) 0 h.agree
  | message now now' address port m =>
    cases m with
    | ping m => exact iff_of_true (timersFollow_ping h now now' address port m) (hother (by simp))
    | welcome m =>
      exact iff_of_true (timersFollow_welcome h now now' address port m) (hother (by simp))
    | close m =>
      rw [step, timersFollow_close_iff h, ClosesLast, not_iff_not]
      constructor
      · intro hlast
        exact ⟨now, now', address, port, m, rfl, hlast⟩
      · rintro ⟨_, _, _, _, m', he, hlast⟩
        cases he
        exact hlast

theorem timersFollow_new : TimersFollow (.new : Server Address) := by
  constructor <;> simp [new]

/-- In a run without a Close of the last client the timers follow the clients throughout, and
such a Close is the only step that makes them stop to. -/
theorem timersFollow_unless_closesLast :
    (∀ s : Server Address, Trace.Reachable step (fun e s => ¬ ClosesLast e s) .new s →
      TimersFollow s) ∧
    (∀ (s : Server Address) (e : Event Address), TimersFollow s →
      (TimersFollow (s.step e).1 ↔ ¬ ClosesLast e s)) := by
  refine ⟨?_, fun s e h => timersFollow_step_iff h e⟩
  intro s hs
  apply hs.invariant timersFollow_new
  intro e s he h
  exact (timersFollow_step_iff h e).mpr he

/-- A registration, and a SIGINT. -/
theorem timersFollow_unless_closesLast_welcome :
    let welcome : Event ℕ := .message 0 0 1 9 (.welcome (.new 7 250))
    TimersFollow (Server.new.step welcome).1 ∧
      TimersFollow ((Server.new.step welcome).1.step .sigInt).1 := by
  intro welcome
  have hwelcome : ¬ ClosesLast welcome .new := by
    rintro ⟨_, _, _, _, _, he, -⟩
    simp [welcome] at he
  have hsigInt : ¬ ClosesLast .sigInt (Server.new.step welcome).1 := by
    rintro ⟨_, _, _, _, _, he, -⟩
    cases he
  have hfollow := timersFollow_unless_closesLast.1 _ (.step welcome .start hwelcome)
  exact ⟨hfollow, (timersFollow_unless_closesLast.2 _ .sigInt hfollow).mpr hsigInt⟩

/-- A registration, and the Close of that client. -/
theorem not_timersFollow_close :
    ¬ ∀ s : Server ℕ, Trace.Reachable step (fun _ _ => True) .new s → TimersFollow s := by
  intro h
  have hclosed := h _ (.step (.message 5 5 1 9 (.close ⟨7, CloseMessage.reasonQuit⟩))
    (.step (.message 0 0 1 9 (.welcome (.new 7 250))) .start trivial) trivial)
  exact hclosed.ping.mp (by decide +kernel)
    (Std.ExtTreeMap.eq_empty_iff_size_eq_zero.mpr (by decide +kernel))

end PacketLossUtils.Server
