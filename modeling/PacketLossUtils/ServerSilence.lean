import PacketLossUtils.Lib.Arrears
import PacketLossUtils.ServerRun
import PacketLossUtils.SweepVisits

/-! What the timeout timer of the server records for a client that has fallen silent. -/
namespace PacketLossUtils

open Arrears Effect NetworkCore

variable {Address : Type} {uniqueId : UInt64} {p : UInt32} {since last : ℤ} {n : ℕ}
  {c c' : ClientInfo Address}

/-! ### One record -/

namespace ClientInfo

/-- The record of a client with the interval `p`, after `n` lost results. -/
structure Charged (p : UInt32) (since : ℤ) (n : ℕ) (c : ClientInfo Address) : Prop where
  interval : c.interval = p
  timeOfLastMessageFromOther : c.timeOfLastMessageFromOther = since + n * p.toNat

theorem Charged.pingTick (h : Charged p since n c) (skipMessage : Bool) (uniqueId : UInt64) :
    Charged p since n (c.pingTick skipMessage uniqueId).1 ∧
      losses uniqueId (c.pingTick skipMessage uniqueId).2 = 0 := by
  simp only [ClientInfo.pingTick]
  split <;> [split; skip]
  · exact ⟨⟨h.interval, h.timeOfLastMessageFromOther⟩, by simp [losses, PingStats.results]⟩
  · exact ⟨⟨h.interval, h.timeOfLastMessageFromOther⟩, by simp [losses, PingStats.results]⟩
  · exact ⟨⟨h.interval, h.timeOfLastMessageFromOther⟩, rfl⟩

/-- A tick moves the deadline on by the interval for every loss it records. -/
theorem Charged.timeoutTick (h : Charged p since n c) {now : ℤ} (uniqueId : UInt64) (hp : 0 < p)
    (hnow : now ≤ last) (hn : n ≤ due p.toNat maxTimeLateMs since last) :
    Charged p since (n + losses uniqueId (c.timeoutTick now uniqueId).2)
        (c.timeoutTick now uniqueId).1 ∧
      n + losses uniqueId (c.timeoutTick now uniqueId).2 ≤
        due p.toNat maxTimeLateMs since last := by
  by_cases hover : Overdue now c
  · have hnext : c.timeOfLastMessageFromOther + c.interval.toNat =
        since + (n + 1) * p.toNat := by
      rw [h.timeOfLastMessageFromOther, h.interval]
      ring
    rw [losses_timeoutTick hover, ClientInfo.timeoutTick, if_pos hover]
    refine ⟨⟨h.interval, hnext.trans (by push_cast; ring)⟩, ?_⟩
    have hperiod : (0 : ℤ) < p.toNat := mod_cast UInt32.lt_iff_toNat_lt.mp hp
    apply Nat.succ_le_of_lt
    rw [lt_due_iff hperiod, ← hnext]
    exact hover.2.trans_le hnow
  · rw [timeoutTick_of_not_overdue hover]
    exact ⟨h, hn⟩

theorem Charged.run (h : Charged p since n c) {events : List Event} (uniqueId : UInt64)
    (hticks : ∀ x ∈ events, (∃ skipMessage, x = .pingTick skipMessage) ∨
      ∃ t ≤ last, x = .timeoutTick t) (hp : 0 < p)
    (hn : n ≤ due p.toNat maxTimeLateMs since last) :
    Charged p since (n + losses uniqueId (Trace.run (step uniqueId) events c).2)
        (Trace.run (step uniqueId) events c).1 ∧
      n + losses uniqueId (Trace.run (step uniqueId) events c).2 ≤
        due p.toNat maxTimeLateMs since last := by
  apply Trace.run_invariant (I := fun (c' : ClientInfo Address) log =>
    Charged p since (n + losses uniqueId log) c' ∧
      n + losses uniqueId log ≤ due p.toNat maxTimeLateMs since last)
  · exact ⟨h, hn⟩
  · rintro x hx c' log ⟨h, hn⟩
    rw [losses_append, ← Nat.add_assoc]
    obtain ⟨skipMessage, rfl⟩ | ⟨t, ht, rfl⟩ := hticks x hx
    · obtain ⟨hcharged, hnone⟩ := h.pingTick skipMessage uniqueId
      rw [step, hnone]
      exact ⟨hcharged, hn⟩
    · exact h.timeoutTick uniqueId hp ht hn

end ClientInfo

/-! ### Runs of the server -/

namespace Server

variable {s : Server Address} {e : Event Address} {events : List (Event Address)}
  {log : List (Effect Address)}

/-- No message of the client comes. -/
def Silent (uniqueId : UInt64) (e : Event Address) : Prop :=
  ∀ now now' address port m, e = .message now now' address port m → m.getUniqueId ≠ uniqueId

/-- The lost results since the last ping are due when the clock shows `last`, and as long as the
client is registered its deadline has moved on by each of them. -/
structure InArrears (uniqueId : UInt64) (p : UInt32) (since last : ℤ) (s : Server Address)
    (log : List (Effect Address)) : Prop where
  losses_le : losses uniqueId log ≤ due p.toNat maxTimeLateMs since last
  charged : ∀ c, s.clientInfos[uniqueId]? = some c → c.Charged p since (losses uniqueId log)

theorem InArrears.same (h : InArrears uniqueId p since last s log) {s' : Server Address}
    {log' : List (Effect Address)} (hentry : s'.clientInfos[uniqueId]? = s.clientInfos[uniqueId]?)
    (hlog : about uniqueId log' = []) : InArrears uniqueId p since last s' (log ++ log') := by
  have hnew : losses uniqueId log' = 0 := by
    rw [← losses_about, hlog, losses_nil]
  have hnone : losses uniqueId (log ++ log') = losses uniqueId log := by
    rw [losses_append, hnew, Nat.add_zero]
  refine ⟨hnone ▸ h.losses_le, ?_⟩
  intro c hc
  rw [hnone]
  exact h.charged c (hentry.symm.trans hc)

/-- Ticks of the record, after which it may have gone. -/
theorem InArrears.run (h : InArrears uniqueId p since last s log) (hp : 0 < p)
    (hc : s.clientInfos[uniqueId]? = some c) {record : List ClientInfo.Event}
    (hticks : ∀ x ∈ record, (∃ skipMessage, x = .pingTick skipMessage) ∨
      ∃ t ≤ last, x = .timeoutTick t) {s' : Server Address} {log' : List (Effect Address)}
    (hentry : ∀ c', s'.clientInfos[uniqueId]? = some c' →
      c' = (Trace.run (ClientInfo.step uniqueId) record c).1)
    (hlog : losses uniqueId log' =
      losses uniqueId (Trace.run (ClientInfo.step uniqueId) record c).2) :
    InArrears uniqueId p since last s' (log ++ log') := by
  obtain ⟨hcharged, hle⟩ := (h.charged c hc).run uniqueId hticks hp h.losses_le
  refine ⟨by rwa [losses_append, hlog], ?_⟩
  intro c' hc'
  rw [losses_append, hlog, hentry c' hc']
  exact hcharged

theorem InArrears.step (h : InArrears uniqueId p since last s log) (hp : 0 < p)
    (hsilent : Silent uniqueId e) (hfires : FiresBy last e) :
    InArrears uniqueId p since last (s.step e).1 (log ++ (s.step e).2) := by
  cases e with
  | pingTimer now =>
    cases hc : s.clientInfos[uniqueId]? with
    | some c =>
      obtain ⟨hentry, hlog⟩ := onPingTimer_entry now hc
      have hticks : ∀ x ∈ pingTicks now s.nextPingTime,
          (∃ skipMessage, x = .pingTick skipMessage) ∨ ∃ t ≤ last, x = .timeoutTick t :=
        fun x hx => .inl ⟨_, List.eq_of_mem_replicate hx⟩
      apply h.run hp hc hticks
      · intro c' hc'
        exact Option.some.inj (hc'.symm.trans hentry)
      · rw [Server.step, ← losses_about, hlog]
    | none =>
      obtain ⟨hentry, hlog⟩ := onPingTimer_none now hc
      exact h.same (hentry.trans hc.symm) hlog
  | timeoutTimer now nowStart =>
    have hswept := onTimeoutTimer_entry now nowStart s uniqueId
    cases hc : s.clientInfos[uniqueId]? with
    | some c =>
      rw [hc] at hswept
      obtain ⟨record, c', log', hrecord, hrun, hend⟩ := hswept.run
      have hticks : ∀ x ∈ record,
          (∃ skipMessage, x = .pingTick skipMessage) ∨ ∃ t ≤ last, x = .timeoutTick t := by
        intro x hx
        obtain ⟨_, ⟨i, rfl⟩, rfl⟩ := hrecord x hx
        exact .inr ⟨now i, hfires i, rfl⟩
      apply h.run hp hc hticks
      · intro c₁ hc₁
        rw [hrun]
        rcases hend with ⟨hstays, -⟩ | ⟨hgone, -⟩
        · exact Option.some.inj (hc₁.symm.trans hstays)
        · cases hc₁.symm.trans hgone
      · rw [hrun, Server.step, ← losses_about]
        rcases hend with ⟨-, hlog⟩ | ⟨-, -, hlog⟩
        · rw [hlog]
        · rw [hlog, losses_append]
          simp [losses, timeoutClose]
    | none =>
      rw [hc] at hswept
      obtain ⟨hentry, hlog⟩ := hswept.unknown
      exact h.same (hentry.trans hc.symm) hlog
  | sigInt =>
    have hnone : losses uniqueId s.closeClients = 0 := by
      rw [losses, calls_eq_nil fun x hx => (quiet_closeClients s x hx).2]
      rfl
    refine ⟨?_, ?_⟩
    · rw [losses_append, Server.step, onSigIntReceived, hnone]
      exact h.losses_le
    · simp [Server.step, onSigIntReceived]
  | message now now' address port m =>
    obtain ⟨hentry, hlog⟩ :=
      receivedMessage_other now now' address port (hsilent now now' address port m rfl) s
    exact h.same hentry hlog

theorem InArrears.run_events (h : InArrears uniqueId p since last s []) (hp : 0 < p)
    (hevents : ∀ e ∈ events, Silent uniqueId e ∧ FiresBy last e) :
    InArrears uniqueId p since last (Trace.run Server.step events s).1
      (Trace.run Server.step events s).2 := by
  apply Trace.run_invariant (I := fun s log => InArrears uniqueId p since last s log) h
  intro e he s log h
  exact h.step hp (hevents e he).1 (hevents e he).2

/-! ### The bound -/

/-- The losses of a client with the interval `p` that pings from this endpoint and then falls
silent, in any state that the server can reach: no more than one for each base interval that has
passed, and no end of them is left when the clock stands still. -/
def LossesBounded (address : Address) (port : UInt16) (p : UInt32) : Prop :=
  ∀ (s : Server Address) (c : ClientInfo Address) (m : PingMessage) (T now' : ℤ),
    Trace.Reachable Server.step (fun _ _ => True) .new s →
    s.clientInfos[m.uniqueId]? = some c → c.interval = p →
      let s₀ := (s.step (.message T now' address port (.ping m))).1
      (∀ (D : ℕ) (events : List (Event Address)),
        (∀ e ∈ events, Silent m.uniqueId e ∧ FiresBy (T + D) e) →
          losses m.uniqueId (Trace.run Server.step events s₀).2 ≤ D / baseTimerInterval.toNat) ∧
      ∀ t nowStart : ℤ, ∃ i, ∀ j, i ≤ j →
        losses m.uniqueId (Trace.run Server.step
          (List.replicate j (.timeoutTimer (fun _ => t) nowStart)) s₀).2 =
        losses m.uniqueId (Trace.run Server.step
          (List.replicate i (.timeoutTimer (fun _ => t) nowStart)) s₀).2

theorem inArrears_ping {m : PingMessage} (T now' : ℤ) (address : Address) (port : UInt16)
    (hc : s.clientInfos[m.uniqueId]? = some c) (hinterval : c.interval = p) (last : ℤ) :
    InArrears m.uniqueId p T last (s.step (.message T now' address port (.ping m))).1 [] := by
  refine ⟨Nat.zero_le _, ?_⟩
  intro c' hc'
  obtain rfl := Option.some.inj ((step_ping T now' address port hc).symm.trans hc')
  rw [ClientInfo.receivedPing]
  split
  · exact ⟨hinterval, by simp⟩
  · exact ⟨hinterval, by simp⟩

/-- The only accepted interval below the base interval is 0. -/
theorem baseTimerInterval_le (haccepted : p % baseTimerInterval = 0) (hp : p ≠ 0) :
    baseTimerInterval.toNat ≤ p.toNat := by
  have hmod : p.toNat % baseTimerInterval.toNat = 0 := by
    rw [← UInt32.toNat_mod, haccepted]
    rfl
  have hpos : 0 < p.toNat := Nat.pos_of_ne_zero fun hzero => hp (UInt32.toNat.inj hzero)
  exact Nat.le_of_dvd hpos (Nat.dvd_of_mod_eq_zero hmod)

theorem losses_silent_le {m : PingMessage} (T now' : ℤ) (address : Address) (port : UInt16)
    (haccepted : p % baseTimerInterval = 0) (hp : p ≠ 0)
    (hc : s.clientInfos[m.uniqueId]? = some c) (hinterval : c.interval = p) {D : ℕ}
    (hevents : ∀ e ∈ events, Silent m.uniqueId e ∧ FiresBy (T + D) e) :
    losses m.uniqueId (Trace.run Server.step events
      (s.step (.message T now' address port (.ping m))).1).2 ≤ D / baseTimerInterval.toNat := by
  have hbase := baseTimerInterval_le haccepted hp
  have hpos : 0 < p := UInt32.lt_iff_toNat_lt.mpr (Nat.lt_of_lt_of_le (by decide) hbase)
  have harrears := (inArrears_ping T now' address port hc hinterval (T + D)).run_events hpos hevents
  exact harrears.losses_le.trans (due_le (by decide) (by exact_mod_cast hbase) (by decide))

theorem losses_replicate_mono (uniqueId : UInt64) (e : Event Address) (s : Server Address) :
    Monotone fun i => losses uniqueId (Trace.run Server.step (List.replicate i e) s).2 := by
  intro i j hij
  obtain ⟨k, rfl⟩ := Nat.exists_eq_add_of_le hij
  simp only [← List.replicate_append_replicate, Trace.run_append, losses_append]
  exact Nat.le_add_right _ _

theorem losses_come_to_rest {m : PingMessage} (T now' : ℤ) (address : Address) (port : UInt16)
    (haccepted : p % baseTimerInterval = 0) (hp : p ≠ 0)
    (hc : s.clientInfos[m.uniqueId]? = some c) (hinterval : c.interval = p) (t nowStart : ℤ) :
    ∃ i, ∀ j, i ≤ j →
      losses m.uniqueId (Trace.run Server.step
        (List.replicate j (.timeoutTimer (fun _ => t) nowStart))
          (s.step (.message T now' address port (.ping m))).1).2 =
      losses m.uniqueId (Trace.run Server.step
        (List.replicate i (.timeoutTimer (fun _ => t) nowStart))
          (s.step (.message T now' address port (.ping m))).1).2 := by
  apply comes_to_rest (losses_replicate_mono m.uniqueId _ _)
  intro i
  have hlast : t ≤ T + (t - T).toNat := by omega
  apply losses_silent_le T now' address port haccepted hp hc hinterval (D := (t - T).toNat)
  intro e he
  obtain rfl := List.eq_of_mem_replicate he
  exact ⟨by simp [Silent], fun _ => hlast⟩

/-- The interval 0 is accepted, and no loss moves its deadline. -/
theorem not_lossesBounded_zero (address : Address) (port : UInt16) :
    ¬ LossesBounded address port 0 := by
  intro h
  let s : Server Address := (Server.new.step (.message 0 0 address port (.welcome (.new 7 0)))).1
  have hc : s.clientInfos[(7 : UInt64)]? = some (.new address port 0 0) :=
    step_welcome (m := .new 7 0) 0 0 address port (by simp [Server.new]) (by decide)
  have hreach : Trace.Reachable Server.step (fun _ _ => True) .new s := .step _ .start trivial
  let c := ((ClientInfo.new address port 0 0).receivedPing 0 0 7 0).1
  have hping : (s.step (.message 0 0 address port (.ping ⟨7, 0, .initialized⟩))).1.clientInfos[
      (7 : UInt64)]? = some c := step_ping (m := ⟨7, 0, .initialized⟩) 0 0 address port hc
  have hcharged : c.Charged 0 0 0 :=
    (inArrears_ping (m := ⟨7, 0, .initialized⟩) 0 0 address port hc rfl 0).charged c hping
  have halive : ¬ c.Dead 101 := by
    rw [ClientInfo.Dead, ClientInfo.receivedPing_lastReal]
    decide
  have hover : ClientInfo.Overdue 101 c := by
    rw [ClientInfo.Overdue, hcharged.timeOfLastMessageFromOther, hcharged.interval]
    decide
  obtain ⟨hbound, -⟩ := h s _ ⟨7, 0, .initialized⟩ 0 0 hreach hc rfl
  have hle := hbound 101 [.timeoutTimer (fun _ => 101) 0] (by simp [Silent, FiresBy])
  rw [Trace.run_singleton] at hle
  exact absurd hle (not_le.mpr (losses_onTimeoutTimer_pos 0 hping halive hover))

/-- For the intervals that the server accepts, the losses of a silent client are bounded by the
time that has passed, except for the interval 0. -/
theorem lossesBounded_iff (address : Address) (port : UInt16)
    (haccepted : p % baseTimerInterval = 0) : LossesBounded address port p ↔ p ≠ 0 := by
  constructor
  · rintro h rfl
    exact not_lossesBounded_zero address port h
  · intro hp s c m T now' _ hc hinterval
    refine ⟨?_, ?_⟩
    · intro D events hevents
      exact losses_silent_le T now' address port haccepted hp hc hinterval hevents
    · intro t nowStart
      exact losses_come_to_rest T now' address port haccepted hp hc hinterval t nowStart

/-- The least interval that keeps the bound. -/
theorem lossesBounded_iff_baseTimerInterval :
    LossesBounded (1 : ℕ) 9 250 ↔ (250 : UInt32) ≠ 0 :=
  lossesBounded_iff 1 9 (by decide)

/-- A Welcome with the interval 0, a ping at 0 and a firing at 101. -/
theorem not_lossesBounded_welcome_zero : ¬ LossesBounded (1 : ℕ) 9 0 :=
  not_lossesBounded_zero 1 9

end Server

end PacketLossUtils
