import PacketLossUtils.Scheduling
import PacketLossUtils.Uplink

/-! How many pings one firing writes. -/
namespace PacketLossUtils

open Effect NetworkCore

variable {Address : Type} {uniqueId : UInt64} {k n : ℕ} {now : ℤ}

namespace ClientInfo

variable {c : ClientInfo Address} {skipMessage : Bool}

/-- Of `n` base ticks at most one completes an interval. -/
theorem Ticking.written_le_one_iff (h : Ticking k c) :
    (written uniqueId (Trace.run (step uniqueId)
      (List.replicate n (.pingTick skipMessage)) c).2).length ≤ 1 ↔
        skipMessage = true ∨ c.intervalCounter.toNat + n < 2 * k := by
  obtain ⟨b, hadvances⟩ := h.pingTicks skipMessage uniqueId n
  have hlength := congrArg List.length hadvances.written
  have hticks := hadvances.intervalCounter
  have hcounter := hadvances.ticking.intervalCounter
  rw [List.length_map] at hlength
  rw [hlength]
  cases skipMessage with
  | true => simp
  | false =>
    simp only [Bool.false_eq_true, if_false, List.length_map, List.length_range, false_or]
    constructor
    · intro hb
      have := Nat.mul_le_mul_left k hb
      omega
    · intro hlt
      by_contra hb
      have := Nat.mul_le_mul_left k (show 2 ≤ b by omega)
      omega

/-- An interval of zero, which the server accepts too, is completed by every base tick. -/
theorem pingTicks_zero (hzero : c.interval = 0) :
    (written uniqueId (Trace.run (step uniqueId)
      (List.replicate n (.pingTick skipMessage)) c).2).length =
        if skipMessage then 0 else n := by
  induction n generalizing c with
  | zero => simp
  | succ n ih =>
    have hfull : (c.intervalCounter + 1) * Server.baseTimerInterval ≥ c.interval := by
      rw [hzero]
      exact UInt32.zero_le
    have hnext : (c.pingTick skipMessage uniqueId).1.interval = 0 := by
      simp only [pingTick, if_pos hfull]
      split <;> exact hzero
    have hfirst : (written uniqueId (c.pingTick skipMessage uniqueId).2).length =
        if skipMessage then 0 else 1 := by
      simp only [pingTick, if_pos hfull]
      cases skipMessage <;> simp
    rw [List.replicate_succ, Trace.run_cons, written_append, List.length_append]
    simp only [step]
    rw [hfirst, ih hnext]
    cases skipMessage <;> simp [Nat.add_comm]

/-- The interval is one that the server accepts, and fewer base ticks of it than it has have
passed. -/
structure OnBeat (c : ClientInfo Address) : Prop where
  interval : c.interval.toNat % 250 = 0
  intervalCounter : c.intervalCounter.toNat < max 1 (c.interval.toNat / 250)

theorem OnBeat.ticking (h : OnBeat c) (hpos : c.interval ≠ 0) :
    Ticking (c.interval.toNat / 250) c := by
  have hinterval := h.interval
  have hcounter := h.intervalCounter
  have hne : c.interval.toNat ≠ 0 := fun hzero => hpos (UInt32.toNat_inj.mp hzero)
  exact ⟨by omega, by omega⟩

theorem OnBeat.written_le_one_iff (h : OnBeat c) (hn : 0 < n) :
    (written uniqueId (Trace.run (step uniqueId)
      (List.replicate n (.pingTick skipMessage)) c).2).length ≤ 1 ↔
        skipMessage = true ∨
          c.intervalCounter.toNat + n < 2 * max 1 (c.interval.toNat / 250) := by
  by_cases hzero : c.interval = 0
  · have hcounter := h.intervalCounter
    rw [pingTicks_zero hzero]
    simp only [hzero, UInt32.toNat_zero, Nat.zero_div] at hcounter ⊢
    cases skipMessage with
    | true => simp
    | false =>
      simp only [Bool.false_eq_true, if_false, false_or]
      omega
  · have hticking := h.ticking hzero
    have hcounter := hticking.intervalCounter
    rw [hticking.written_le_one_iff, Nat.max_eq_right (by omega)]

theorem OnBeat.samePhase {c' : ClientInfo Address} (h : OnBeat c) (hsame : SamePhase c c') :
    OnBeat c' where
  interval := by rw [hsame.interval]; exact h.interval
  intervalCounter := by rw [hsame.interval, hsame.intervalCounter]; exact h.intervalCounter

theorem pingTick_onBeat (h : OnBeat c) (skipMessage : Bool) (uniqueId : UInt64) :
    OnBeat (c.pingTick skipMessage uniqueId).1 := by
  have hinterval := pingTick_interval skipMessage uniqueId c
  by_cases hzero : c.interval = 0
  · have hfull : (c.intervalCounter + 1) * Server.baseTimerInterval ≥ c.interval := by
      rw [hzero]
      exact UInt32.zero_le
    have hcounter : (c.pingTick skipMessage uniqueId).1.intervalCounter = 0 := by
      simp only [pingTick, if_pos hfull]
      split <;> rfl
    refine ⟨by rw [hinterval]; exact h.interval, ?_⟩
    rw [hcounter, hinterval, hzero]
    decide
  · obtain ⟨_, hadvances⟩ := (h.ticking hzero).pingTick skipMessage uniqueId
    refine ⟨by rw [hinterval]; exact h.interval, ?_⟩
    rw [hinterval]
    exact lt_max_of_lt_right hadvances.ticking.intervalCounter

theorem OnBeat.step (h : OnBeat c) (uniqueId : UInt64) (e : Event) :
    OnBeat (c.step uniqueId e).1 := by
  by_cases he : ∃ skipMessage, e = .pingTick skipMessage
  · obtain ⟨skipMessage, rfl⟩ := he
    exact pingTick_onBeat h skipMessage uniqueId
  · exact h.samePhase (step_samePhase (fun skipMessage hstep => he ⟨skipMessage, hstep⟩) c)

end ClientInfo

namespace Server

variable {s : Server Address}

/-- All records are in phase. -/
def OnBeat (s : Server Address) : Prop :=
  ∀ (uniqueId : UInt64) (c : ClientInfo Address), s.clientInfos[uniqueId]? = some c → c.OnBeat

theorem onBeat_step (e : Event Address) (h : OnBeat s) : OnBeat (s.step e).1 := by
  intro uniqueId c' hc'
  cases hc : s.clientInfos[uniqueId]? with
  | some c =>
    apply step_keeps hc hc' (h uniqueId c hc)
    intro events _ x _ c₁ hbeat
    exact hbeat.step uniqueId x
  | none =>
    obtain ⟨_, _, hregister⟩ := step_unknown (e := e) hc
    obtain ⟨now, now', m, rfl, rfl, hrecord⟩ := hregister c' hc'
    rcases receivedMessage_welcome_cases now now' c'.address c'.port m s with
      ⟨-, hignored⟩ | ⟨-, hinterval, -⟩
    · rw [step, hignored, hc] at hc'
      cases hc'
    · have hmod := congrArg UInt32.toNat hinterval
      rw [UInt32.toNat_mod] at hmod
      rw [hrecord]
      exact ⟨hmod, lt_max_of_lt_left Nat.zero_lt_one⟩

theorem onBeat_reachable (h : Trace.Reachable step (fun _ _ => True) .new s) : OnBeat s := by
  apply h.invariant
  · intro uniqueId c hc
    simp [new] at hc
  · intro e s _ hs
    exact onBeat_step e hs

/-- No client gets more than one ping from a firing. -/
def WritesOnce (e : Event Address) (s : Server Address) : Prop :=
  ∀ now, e = .pingTimer now → ∀ (uniqueId : UInt64) (c : ClientInfo Address),
    s.clientInfos[uniqueId]? = some c → (written uniqueId (s.onPingTimer now).2).length ≤ 1

/-- A firing is delayed, or not so far from its time that the base ticks made up for complete an
interval twice. -/
def NearSchedule (e : Event Address) (s : Server Address) : Prop :=
  ∀ now, e = .pingTimer now → ∀ (uniqueId : UInt64) (c : ClientInfo Address),
    s.clientInfos[uniqueId]? = some c → now > s.nextPingTime + maxTimeLateMs ∨
      c.intervalCounter.toNat + ((now - s.nextPingTime).natAbs / 250 + 1) <
        2 * max 1 (c.interval.toNat / 250)

theorem writesOnce_iff (h : OnBeat s) (e : Event Address) :
    WritesOnce e s ↔ NearSchedule e s := by
  refine forall₄_congr fun now _ uniqueId c => forall_congr' fun hc => ?_
  have hentry := (onPingTimer_entry now hc).2
  have hmissed : 0 < numPingsMissed now s.nextPingTime := Nat.succ_pos _
  rw [← written_about, hentry, pingTicks, (h uniqueId c hc).written_le_one_iff hmissed,
    skipMessage, decide_eq_true_iff]
  rfl

end Server

namespace Client

variable {c : Client Address}

/-- A firing writes no more than one ping. -/
def WritesOnce (e : Event Address) (c : Client Address) : Prop :=
  ∀ now, e = .pingTimer now → (written c.uniqueId (c.onPingTimer now).2).length ≤ 1

/-- A firing is delayed, or less than an interval away from its time. -/
def NearSchedule (e : Event Address) (c : Client Address) : Prop :=
  ∀ now, e = .pingTimer now → now > c.nextPingTime + maxTimeLateMs ∨
    (now - c.nextPingTime).natAbs < c.interval.toNat

theorem pingRounds_skipped (now : ℤ) (rounds : List ℕ) (c : Client Address) :
    written c.uniqueId (Trace.run (fun _ => pingRound now true) rounds c).2 = [] := by
  induction rounds generalizing c with
  | nil => rfl
  | cons i rounds ih => simpa [Trace.run_cons, pingRound] using ih (pingRound now true c).1

theorem writesOnce_iff (hpos : 0 < c.interval) (e : Event Address) :
    WritesOnce e c ↔ NearSchedule e c := by
  refine forall₂_congr fun now _ => ?_
  have hinterval := UInt32.lt_iff_toNat_lt.mp hpos
  rw [onPingTimer, numPingsMissed]
  by_cases hlate : now > c.nextPingTime + maxTimeLateMs
  · have hskip : skipMessage now c.nextPingTime = true := decide_eq_true hlate
    rw [hskip, pingRounds_skipped]
    exact iff_of_true (Nat.zero_le 1) (.inl hlate)
  · have hskip : skipMessage now c.nextPingTime = false := decide_eq_false hlate
    have hwritten := congrArg List.length
      (pingRounds_written now (List.range ((now - c.nextPingTime).natAbs / c.interval.toNat + 1))
        c).2
    rw [List.length_map, List.length_map, List.length_range, List.length_range] at hwritten
    rw [hskip, hwritten, or_iff_right hlate, ← Nat.div_eq_zero_iff_lt hinterval]
    generalize (now - c.nextPingTime).natAbs / c.interval.toNat = missed
    omega

variable [HostAddress Address]

theorem interval_reachable {address : Address} {port : UInt16} {interval : UInt32}
    (h : Trace.Reachable step (fun _ _ => True) (.new address port interval uniqueId) c) :
    c.interval = interval := by
  apply h.invariant (I := fun c => c.interval = interval) rfl
  intro e c _ hinterval
  exact (step_setup e c).interval.trans hinterval

end Client

/-- In every run, the firings write one ping at most exactly if all of them are close to their
time or delayed. -/
theorem writesOnce_along_iff [HostAddress Address] :
    (∀ events : List (Server.Event Address),
      Trace.Along Server.step Server.WritesOnce events .new ↔
        Trace.Along Server.step Server.NearSchedule events .new) ∧
    (∀ (address : Address) (port : UInt16) (interval : UInt32) (uniqueId : UInt64)
        (events : List (Client.Event Address)), 0 < interval →
      (Trace.Along Client.step Client.WritesOnce events (.new address port interval uniqueId) ↔
        Trace.Along Client.step Client.NearSchedule events
          (.new address port interval uniqueId))) := by
  refine ⟨?_, ?_⟩
  · intro events
    apply Trace.along_congr
    intro e s hs
    exact Server.writesOnce_iff (Server.onBeat_reachable hs) e
  · intro address port interval uniqueId events hpos
    apply Trace.along_congr
    intro e c hc
    apply Client.writesOnce_iff
    rwa [Client.interval_reachable hc]

/-- A first firing that comes on time, and one that comes 50 ms early. -/
theorem writesOnce_along_early :
    Trace.Along Client.step Client.WritesOnce
      [.connect (fun _ => some 20) 10000 10000, .pingTimer 10250, .pingTimer 10450]
      (.new 1 9 250 7 : Client ℕ) := by
  apply (writesOnce_along_iff.2 1 9 250 7 _ (by decide)).mpr
  refine ⟨by simp [Client.NearSchedule], ?_, ?_, trivial⟩
  · intro now hnow
    cases hnow
    exact .inr (by decide +kernel)
  · intro now hnow
    cases hnow
    exact .inr (by decide +kernel)

/-- The clock is set back by a second before the first firing: six pings at once. -/
theorem not_writesOnce_clock_set_back :
    ¬ (∀ events : List (Server.Event ℕ),
      Trace.Along Server.step Server.WritesOnce events .new) ∧
    ¬ (∀ events : List (Client.Event ℕ),
      Trace.Along Client.step Client.WritesOnce events (.new 1 9 250 7)) := by
  refine ⟨?_, ?_⟩
  · intro h
    obtain ⟨-, hfiring, -⟩ := h [.message 10000 10000 1 9 (.welcome (.new 7 250)),
      .pingTimer 9000]
    have hmem : (7 : UInt64) ∈ ((Server.new : Server ℕ).step
        (.message 10000 10000 1 9 (.welcome (.new 7 250)))).1.clientInfos := by decide +kernel
    obtain ⟨c, hc⟩ := TreeMap.mem_iff_exists.mp hmem
    have hone := hfiring 9000 rfl 7 c hc
    revert hone
    decide +kernel
  · intro h
    obtain ⟨-, hfiring, -⟩ := h [.connect (fun _ => some 20) 10000 10000, .pingTimer 9000]
    have hone := hfiring 9000 rfl
    revert hone
    decide +kernel

end PacketLossUtils
