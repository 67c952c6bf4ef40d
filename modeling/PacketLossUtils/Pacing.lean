import PacketLossUtils.ClientProcess
import PacketLossUtils.Isolation
import PacketLossUtils.Lib.CatchUp
import PacketLossUtils.Scheduling
import PacketLossUtils.Uplink

/-! Which pings are written and which are skipped: the readings of the ping timer decide. -/
namespace PacketLossUtils

open CatchUp Effect NetworkCore Trace

variable {Address : Type} {since : ℤ}

theorem late_iff (now since : ℤ) (period : ℕ) :
    decide (now > since + period + maxTimeLateMs) =
      !decide (now - since ≤ period + maxTimeLateMs) := by
  rw [← decide_not, decide_eq_decide]
  omega

theorem fates_eq_nil {uniqueId : UInt64} {log : List (Effect Address)}
    (h : ∀ e ∈ log, e.builtPing = none) : fates uniqueId log = [] := by
  rw [← List.length_eq_zero_iff, length_fates, built_eq_nil h, List.length_nil]

/-! ### The client -/

namespace Client

variable {c : Client Address} {e : Event Address} {events : List (Event Address)}

/-- The readings of the ping timer, in order. -/
def pingReadings (events : List (Event Address)) : List ℤ :=
  events.filterMap fun
    | .pingTimer now => some now
    | _ => none

/-- The ping timer is due an interval after `since`. -/
def DueAfter (since : ℤ) (c : Client Address) : Prop :=
  c.nextPingTime = since + c.interval.toNat

theorem pingRounds_fates (now : ℤ) (skipMessage : Bool) (rounds : List ℕ) (c : Client Address) :
    fates c.uniqueId (run (fun _ => pingRound now skipMessage) rounds c).2 =
      List.replicate rounds.length (!skipMessage) := by
  induction rounds generalizing c with
  | nil => rfl
  | cons i rounds ih =>
    have hrest := ih (pingRound now skipMessage c).1
    have hfirst : fates c.uniqueId (pingRound now skipMessage c).2 = [!skipMessage] := by
      cases skipMessage <;> simp [pingRound, write]
    rw [(pingRound_frame now skipMessage c).1.uniqueId] at hrest
    rw [run_cons, fates_append, hfirst, hrest, List.length_cons, List.replicate_succ,
      List.singleton_append]

theorem onPingTimer_fates (hdue : DueAfter since c) (now : ℤ) :
    fates c.uniqueId (c.onPingTimer now).2 =
        ticks c.interval.toNat maxTimeLateMs since [now] ∧
      DueAfter now (c.onPingTimer now).1 := by
  have hmissed : numPingsMissed now c.nextPingTime c.interval =
      rounds c.interval.toNat (now - since) := by
    rw [numPingsMissed, rounds, hdue, Int.toNat_natCast, sub_sub]
  have hlate : skipMessage now c.nextPingTime = _ :=
    (congrArg (skipMessage now) hdue).trans (late_iff now since c.interval.toNat)
  obtain ⟨hsetup, -⟩ := pingRounds_frame now (skipMessage now c.nextPingTime)
    (List.range (numPingsMissed now c.nextPingTime c.interval)) c
  constructor
  · rw [onPingTimer, pingRounds_fates, List.length_range, hmissed, hlate, Bool.not_not, ticks_cons,
      ticks_nil, List.append_nil]
  · rw [DueAfter, onPingTimer, hsetup.interval]
    exact pingRounds_nextPingTime now _ (by simp [numPingsMissed]) c

variable [HostAddress Address]

/-- Nothing but the ping timer builds pings or sets its time. -/
theorem step_noPing (hloop : InLoop e) (he : ∀ now, e ≠ .pingTimer now) (c : Client Address) :
    (∀ x ∈ (c.step e).2, x.builtPing = none) ∧ (c.step e).1.nextPingTime = c.nextPingTime := by
  cases e with
  | connect => exact hloop.elim
  | pingTimer now => exact absurd rfl (he now)
  | timeoutTimer now =>
    simp only [step, onTimeoutTimer]
    split <;> exact ⟨by simp [builtPing], rfl⟩
  | sigInt =>
    simp only [step, onSigIntReceived]
    split <;> exact ⟨by simp [builtPing, write], rfl⟩
  | message now address port m =>
    simp only [step, receivedMessage]
    split
    · exact ⟨by simp, rfl⟩
    cases m with
    | ping m =>
      simp only [receivedPing]
      split <;> exact ⟨by simp [builtPing], rfl⟩
    | close m =>
      dsimp only
      split <;> exact ⟨by simp, rfl⟩
    | welcome m => exact ⟨by simp, rfl⟩

theorem run_fates (hdue : DueAfter since c) (hloop : ∀ e ∈ events, InLoop e) :
    fates c.uniqueId (run step events c).2 =
      ticks c.interval.toNat maxTimeLateMs since (pingReadings events) := by
  induction events generalizing c since with
  | nil => rfl
  | cons e events ih =>
    obtain ⟨hfirst, hrest⟩ := List.forall_mem_cons.mp hloop
    have hsetup := step_setup e c
    rw [run_cons, fates_append]
    by_cases he : ∃ now, e = .pingTimer now
    · obtain ⟨now, rfl⟩ := he
      obtain ⟨hfates, hnext⟩ := onPingTimer_fates hdue now
      have hafter := ih (c := (c.step (.pingTimer now)).1) hnext hrest
      rw [hsetup.uniqueId, hsetup.interval] at hafter
      rw [hafter, step, hfates, ticks_cons, ticks_nil, List.append_nil]
      rfl
    · have hother : ∀ now, e ≠ .pingTimer now := fun now hnow => he ⟨now, hnow⟩
      obtain ⟨hbuilt, hsame⟩ := step_noPing hfirst hother c
      have hreadings : pingReadings (e :: events) = pingReadings events := by
        cases e with
        | pingTimer now => exact absurd rfl (hother now)
        | _ => rfl
      have hstill : DueAfter since (c.step e).1 := by rw [DueAfter, hsame, hsetup.interval, hdue]
      have hafter := ih hstill hrest
      rw [hsetup.uniqueId, hsetup.interval] at hafter
      rw [fates_eq_nil hbuilt, hreadings, hafter, List.nil_append]

/-- From a successful attempt to connect on, the readings of the ping timer alone decide which pings
are written and which are skipped. The number of pings follows the time that has passed: each firing
adds less than an interval to the difference, and pings are behind as long as none is early. -/
theorem pings_paced {pending : ℕ → Option ℕ} {now now' : ℤ} (hinterval : 0 < c.interval)
    (hconnected : (c.connect pending now now').2 = true) (hloop : ∀ e ∈ events, InLoop e) :
    let log := (run step events (c.connect pending now now').1.1).2
    let readings := pingReadings events
    let elapsed := last now' readings - now'
    fates c.uniqueId log = ticks c.interval.toNat maxTimeLateMs now' readings ∧
      ((∀ gap ∈ gaps now' readings, 0 < gap) →
        |(c.interval.toNat : ℤ) * (built c.uniqueId log).length - elapsed| ≤
          readings.length * (c.interval.toNat - 1)) ∧
      ((∀ gap ∈ gaps now' readings, (c.interval.toNat : ℤ) ≤ gap) →
        (c.interval.toNat : ℤ) * (built c.uniqueId log).length ≤ elapsed) := by
  intro log readings elapsed
  have hperiod : (0 : ℤ) < c.interval.toNat := by
    have hpos := UInt32.lt_iff_toNat_lt.mp hinterval
    exact mod_cast hpos
  obtain ⟨hsetup, hdue⟩ : SameSetup c (c.connect pending now now').1.1 ∧
      DueAfter now' (c.connect pending now now').1.1 := by
    rcases connect_cases pending now now' c with ⟨_, hout⟩ | ⟨_, hout⟩ | ⟨_, hout⟩
    · rw [hout] at hconnected
      cases hconnected
    · rw [hout] at hconnected
      cases hconnected
    · rw [hout]
      exact ⟨⟨rfl, rfl, rfl, rfl⟩, rfl⟩
  have hfates := run_fates hdue hloop
  rw [hsetup.uniqueId, hsetup.interval] at hfates
  have hlength : (built c.uniqueId log).length = _ :=
    (length_fates c.uniqueId log).symm.trans (congrArg List.length hfates)
  refine ⟨hfates, ?_, ?_⟩
  · intro hgaps
    rw [hlength]
    exact abs_mul_length_ticks_sub_le _ hperiod hgaps
  · intro hgaps
    rw [hlength]
    exact mul_length_ticks_le _ hperiod hgaps

/-- A firing on time, one 120 ms late, and one that makes up for three intervals. -/
theorem pings_paced_late :
    let events : List (Event ℕ) := [.pingTimer 250, .timeoutTimer 300, .pingTimer 620,
      .pingTimer 1400]
    let log := (run step events ((new 1 9 250 7).connect (fun _ => some 5) 0 0).1.1).2
    fates 7 log = [true, false, false, false, false] ∧
      (250 : ℤ) * (built 7 log).length ≤ 1400 := by
  intro events log
  have hconnected : ((new 1 9 250 7 : Client ℕ).connect (fun _ => some 5) 0 0).2 = true := rfl
  have hloop : ∀ e ∈ events, InLoop e := by simp [events, InLoop]
  have hpaced := pings_paced (by decide) hconnected hloop
  exact ⟨hpaced.1.trans (by decide), hpaced.2.2 (by decide)⟩

end Client

/-! ### The server -/

namespace Server

variable {uniqueId : UInt64} {m : ℕ} {s : Server Address} {c : ClientInfo Address}
  {e : Event Address} {events : List (Event Address)}

/-- The readings of the ping timer, in order. -/
def pingReadings (events : List (Event Address)) : List ℤ :=
  events.filterMap fun
    | .pingTimer now => some now
    | _ => none

theorem numPingsMissed_eq (hdue : DueAt (since + 250) s) (now : ℤ) :
    numPingsMissed now s.nextPingTime = rounds 250 (now - since) := by
  rw [numPingsMissed, rounds, hdue.nextPingTime, ← sub_sub]
  rfl

/-- The base ticks of a firing, counted on from those of the record, give the client its pings. -/
theorem onPingTimer_fates (hdue : DueAt (since + 250) s)
    (hc : s.clientInfos[uniqueId]? = some c) (hticking : c.Ticking m) (now : ℤ) :
    ∃ c', (s.onPingTimer now).1.clientInfos[uniqueId]? = some c' ∧ c'.Ticking m ∧
      fates uniqueId (s.onPingTimer now).2 = everyNth m c.intervalCounter.toNat
        (ticks 250 maxTimeLateMs since [now]) ∧
      c'.intervalCounter.toNat = (c.intervalCounter.toNat +
        (ticks 250 maxTimeLateMs since [now]).length) % m := by
  obtain ⟨c', b, hc', hadvances⟩ := onPingTimer_advances now hc hticking
  have hlate : skipMessage now s.nextPingTime = _ :=
    (congrArg (skipMessage now) hdue.nextPingTime).trans (late_iff now since 250)
  have hcount := hadvances.intervalCounter
  rw [numPingsMissed_eq hdue] at hcount
  have hm : 0 < m := (Nat.zero_le _).trans_lt hticking.intervalCounter
  obtain ⟨hquotient, hremainder⟩ := (Nat.div_mod_unique hm).mpr
    ⟨hcount, hadvances.ticking.intervalCounter⟩
  refine ⟨c', hc', hadvances.ticking, ?_, ?_⟩
  · rw [hadvances.fates, hlate, Bool.not_not, ticks_cons, ticks_nil, List.append_nil,
      everyNth_replicate hticking.intervalCounter, hquotient]
    rfl
  · rw [ticks_cons, ticks_nil, List.append_nil, List.length_replicate, hremainder]

theorem run_fates (hdue : DueAt (since + 250) s) (hc : s.clientInfos[uniqueId]? = some c)
    (hticking : c.Ticking m) (hstays : Stays uniqueId events s) :
    fates uniqueId (run step events s).2 = everyNth m c.intervalCounter.toNat
      (ticks 250 maxTimeLateMs since (pingReadings events)) := by
  induction events generalizing s c since with
  | nil => rfl
  | cons e events ih =>
    obtain ⟨hfirst, hrest⟩ := hstays
    rw [run_cons, fates_append]
    by_cases he : ∃ now, e = .pingTimer now
    · obtain ⟨now, rfl⟩ := he
      obtain ⟨c', hc', hticking', hfates, hcounter⟩ := onPingTimer_fates hdue hc hticking now
      have hafter := ih (hdue.onPingTimer now) hc' hticking' hrest
      have hreadings : ticks 250 maxTimeLateMs since (pingReadings (.pingTimer now :: events)) =
          ticks 250 maxTimeLateMs since [now] ++
            ticks 250 maxTimeLateMs now (pingReadings events) := by
        rw [ticks_cons, ticks_nil, List.append_nil]
        rfl
      rw [hreadings, everyNth_append hticking.intervalCounter, ← hcounter, ← hafter]
      exact congrArg (· ++ _) hfates
    · have hother : ∀ now, e ≠ .pingTimer now := fun now hnow => he ⟨now, hnow⟩
      obtain ⟨c', hc'⟩ := TreeMap.mem_iff_exists.mp hfirst
      have hsame := step_samePhase hother hc hc'
      have hstill := hdue.step hother (TreeMap.mem_iff_exists.mpr ⟨c, hc⟩) hfirst
      have hreadings : pingReadings (e :: events) = pingReadings events := by
        cases e with
        | pingTimer now => exact absurd rfl (hother now)
        | _ => rfl
      have hafter := ih hstill hc' (hticking.samePhase hsame) hrest
      rw [fates_eq_nil (no_ping_step hother), hreadings, hafter, hsame.intervalCounter,
        List.nil_append]

/-- With the first client the ping timer starts, and for any other one it runs already. -/
theorem timerPingActive_of_registered (hnew : uniqueId ∉ s.clientInfos)
    (hregistered : (s.step e).1.clientInfos[uniqueId]? = some c) :
    (s.step e).1.timerPingActive = true := by
  obtain ⟨_, _, hregister⟩ := step_unknown (e := e) (Std.ExtTreeMap.getElem?_eq_none hnew)
  obtain ⟨now, now', welcome, rfl, -, -⟩ := hregister c hregistered
  have hmem : uniqueId ∈ (s.receivedMessage now now' c.address c.port
      (.welcome welcome)).1.clientInfos := TreeMap.mem_iff_exists.mpr ⟨c, hregistered⟩
  rw [step]
  rcases receivedMessage_welcome_cases now now' c.address c.port welcome s with
    ⟨-, hignored⟩ | ⟨-, -, hadded⟩
  · rw [hignored] at hmem
    exact absurd hmem hnew
  · rw [hadded] at hmem ⊢
    exact (active_startOrStopTimersIfNeeded now' _).timerPingActive hmem

/-- From its registration on, as long as it stays registered, a client gets a ping with every `m`-th
base tick, and the readings of the base timer alone decide which of its pings are written and which
are skipped. Their number follows the time that has passed, as the base timer does. -/
theorem client_paced (hnew : uniqueId ∉ s.clientInfos)
    (hregistered : (s.step e).1.clientInfos[uniqueId]? = some c)
    (hinterval : c.interval.toNat = 250 * m) (hm : 1 ≤ m)
    (hstays : Stays uniqueId events (s.step e).1) :
    let log := (run step events (s.step e).1).2
    let readings := pingReadings events
    let since := (s.step e).1.nextPingTime - 250
    let elapsed := last since readings - since
    fates uniqueId log = everyNth m 0 (ticks 250 maxTimeLateMs since readings) ∧
      ((∀ gap ∈ gaps since readings, 0 < gap) →
        (c.interval.toNat : ℤ) * (built uniqueId log).length ≤ elapsed + readings.length * 249 ∧
          elapsed - readings.length * 249 <
            (c.interval.toNat : ℤ) * ((built uniqueId log).length + 1)) ∧
      ((∀ gap ∈ gaps since readings, 250 ≤ gap) →
        (c.interval.toNat : ℤ) * (built uniqueId log).length ≤ elapsed) := by
  intro log readings since elapsed
  obtain ⟨_, _, hregister⟩ := step_unknown (e := e) (Std.ExtTreeMap.getElem?_eq_none hnew)
  obtain ⟨now, _, welcome, _, _, hrecord⟩ := hregister c hregistered
  have hcounter : c.intervalCounter.toNat = 0 := by rw [hrecord]; rfl
  have hticking : c.Ticking m := ⟨hinterval, by omega⟩
  have hdue : DueAt (since + 250) (s.step e).1 :=
    ⟨timerPingActive_of_registered hnew hregistered, by simp only [since]; omega⟩
  have hfates := run_fates hdue hregistered hticking hstays
  rw [hcounter] at hfates
  have hlength : (built uniqueId log).length =
      (ticks 250 maxTimeLateMs since readings).length / m := by
    rw [← length_fates, hfates, length_everyNth hm, Nat.zero_add]
  generalize hK : (ticks 250 maxTimeLateMs since readings).length = K at hlength
  -- the pings built are the intervals that `K` base ticks complete
  have hle : m * (built uniqueId log).length ≤ K := by
    rw [hlength]
    exact Nat.mul_div_le K m
  have hlt : K < m * ((built uniqueId log).length + 1) := by
    rw [hlength]
    exact Nat.lt_mul_div_succ K hm
  rw [hinterval, Nat.cast_mul, mul_assoc, mul_assoc]
  have hle : (m * (built uniqueId log).length : ℤ) ≤ K := mod_cast hle
  have hlt : (K : ℤ) < m * ((built uniqueId log).length + 1) := mod_cast hlt
  have hbase : (0 : ℤ) < 250 := by decide
  refine ⟨hfates, ?_, ?_⟩
  · intro hgaps
    have hclose := abs_mul_length_ticks_sub_le maxTimeLateMs hbase hgaps
    rw [hK, abs_le] at hclose
    push_cast
    constructor <;> omega
  · intro hgaps
    have hbehind := mul_length_ticks_le maxTimeLateMs hbase hgaps
    rw [hK] at hbehind
    push_cast
    omega

/-- A client that registers 100 ms after another one, whose timer it shares, and that is skipped
with the firing that comes 150 ms late. -/
theorem client_paced_second :
    let s : Server ℕ := (Server.new.step (.message 0 0 2 5000 (.welcome (.new 8 250)))).1
    let registration : Event ℕ := .message 100 100 3 5000 (.welcome (.new 7 500))
    let events : List (Event ℕ) := [250, 650, 900, 1150].map .pingTimer
    let log := (run step events (s.step registration).1).2
    fates 7 log = [false, true] ∧ (500 : ℤ) * (built 7 log).length ≤ 1150 := by
  intro s registration events log
  have hnew : (7 : UInt64) ∉ s.clientInfos := by decide +kernel
  have hmem : (7 : UInt64) ∈ (s.step registration).1.clientInfos := by decide +kernel
  obtain ⟨c, hc⟩ := TreeMap.mem_iff_exists.mp hmem
  have hinterval : (s.step registration).1.clientInfos[(7 : UInt64)]?.map
      (fun c => c.interval.toNat) = some 500 := by decide +kernel
  have hinterval : c.interval.toNat = 500 := by
    rw [hc] at hinterval
    exact Option.some.inj hinterval
  have hdue : (s.step registration).1.nextPingTime - 250 = 0 := by decide +kernel
  have hstays : Stays 7 events (s.step registration).1 := by
    refine ⟨?_, ?_, ?_, ?_, trivial⟩ <;> decide +kernel
  have hticks : c.interval.toNat = 250 * 2 := hinterval
  have hpaced := client_paced hnew hc hticks (by decide) hstays
  simp only [hdue, hinterval] at hpaced
  exact ⟨hpaced.1.trans (by decide), hpaced.2.2 (by decide)⟩

end Server

end PacketLossUtils
