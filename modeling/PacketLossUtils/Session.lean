import PacketLossUtils.Lib.Simulation
import PacketLossUtils.ReceptionHistory
import PacketLossUtils.Ticks

/-! A registered client as the server is meant to see it: counts that do not wrap, and every result
it ever had. -/
namespace PacketLossUtils

open NetworkCore PingStats

variable {Address : Type} {uniqueId : UInt64}

namespace PingStats

/-- The statistics of all results, of the pings sent, and of the pings received. -/
def kept (sent received : ℕ) (h : List Bool) : PingStats :=
  { replay (h.map .addResult) with
    packetsSent := UInt64.ofNat sent
    packetsReceived := UInt64.ofNat received }

theorem foldl_kept (calls : List Call) (sent received : ℕ) (h : List Bool) :
    calls.foldl apply (kept sent received h) = kept (sent + calls.count .addPacketSent)
      (received + calls.count .addPacketReceived) (h ++ results calls) := by
  induction calls generalizing sent received h with
  | nil => simp
  | cons call calls ih =>
    rw [List.foldl_cons]
    cases call with
    | addResult didArrive =>
      have happly : (kept sent received h).apply (.addResult didArrive) =
          kept sent received (h ++ [didArrive]) := by
        rw [kept, kept, List.map_append, List.map_singleton, replay_append_singleton]
        rfl
      rw [happly, ih]
      simp
    | addPacketSent =>
      have happly : (kept sent received h).apply .addPacketSent = kept (sent + 1) received h := by
        simp [kept, apply, addPacketSent, UInt64.ofNat_add]
      rw [happly, ih]
      simp [Nat.add_right_comm, Nat.add_assoc]
    | addPacketReceived =>
      have happly : (kept sent received h).apply .addPacketReceived =
          kept sent (received + 1) h := by
        simp [kept, apply, addPacketReceived, UInt64.ofNat_add]
      rw [happly, ih]
      simp [Nat.add_right_comm, Nat.add_assoc]

/-- The statistics of the results `h`, where every ping that arrived was received. -/
def ofResults (sent : ℕ) (h : List Bool) : PingStats := kept sent (h.count true) h

theorem ofResults_succ (sent : ℕ) (h : List Bool) :
    ofResults (sent + 1) h = (ofResults sent h).addPacketSent := by
  simpa [ofResults, apply] using (foldl_kept [.addPacketSent] sent (h.count true) h).symm

/-- The number of the ping that has its result next. -/
def expected (h : List Bool) : UInt64 := UInt64.ofNat h.length

/-- The results that ping number `counter` adds. -/
def news (counter : UInt64) (h : List Bool) : List Bool :=
  List.replicate (counter.toNat - (expected h).toNat) false ++ [true]

/-- The calls that record the results, one of which at most is of a ping that arrived. -/
def recording (l : List Bool) : List Call :=
  l.map .addResult ++ List.replicate (l.count true) .addPacketReceived

theorem results_map_addResult (l : List Bool) : results (l.map .addResult) = l := by
  induction l with
  | nil => rfl
  | cons didArrive l ih => rw [List.map_cons, results_addResult, ih]

@[simp] theorem results_recording (l : List Bool) : results (recording l) = l := by
  have hnone : results (List.replicate (l.count true) .addPacketReceived) = [] := by
    simp [results, List.filterMap_replicate_of_none]
  rw [recording, results_append, results_map_addResult, hnone, List.append_nil]

@[simp] theorem count_addPacketSent_recording (l : List Bool) :
    (recording l).count .addPacketSent = 0 := by
  simp [recording, List.count_eq_zero]

@[simp] theorem count_addPacketReceived_recording (l : List Bool) :
    (recording l).count .addPacketReceived = l.count true := by
  have hnone : (l.map Call.addResult).count .addPacketReceived = 0 := by
    simp [List.count_eq_zero]
  rw [recording, List.count_append, hnone, List.count_replicate_self, Nat.zero_add]

end PingStats

namespace Reception

/-- The reception of all results that were recorded. -/
theorem after_recording (sent : ℕ) (h l : List Bool) :
    (Reception.mk (expected h) (ofResults sent h)).after (recording l) =
      ⟨expected (h ++ l), ofResults sent (h ++ l)⟩ := by
  have hstats := foldl_kept (recording l) sent (h.count true) h
  rw [count_addPacketSent_recording, count_addPacketReceived_recording, results_recording] at hstats
  rw [after, results_recording, expected, expected, List.length_append, UInt64.ofNat_add,
    ofResults, ofResults, List.count_append]
  exact congrArg _ hstats

theorem markSeen_recording (counter : UInt64) (stats : PingStats) (h : List Bool) :
    ((Reception.mk (expected h) stats).markSeen counter).2 = recording (news counter h) := by
  rw [markSeen_calls, news]
  simp [recording, List.count_replicate]

end Reception

/-- A session of one client. Its interval is one that the server accepts. -/
structure Session (Address : Type) where
  address : Address
  port : UInt16
  interval : UInt32
  accepted : interval % Server.baseTimerInterval = 0
  /-- Base ticks since the registration. -/
  ticks : ℕ
  /-- Pings that were written. -/
  written : ℕ
  /-- Oldest first. -/
  results : List Bool
  timeOfLastMessageFromOther : ℤ
  timeOfLastRealMessageFromOther : ℤ

namespace Session

variable {x : Session Address}

def new (address : Address) (port : UInt16) (interval : UInt32)
    (accepted : interval % Server.baseTimerInterval = 0) (now : ℤ) : Session Address where
  address := address
  port := port
  interval := interval
  accepted := accepted
  ticks := 0
  written := 0
  results := []
  timeOfLastMessageFromOther := -1
  timeOfLastRealMessageFromOther := now

/-- The base ticks from one ping to the next. -/
def period (x : Session Address) : ℕ := max 1 (x.interval.toNat / 250)

/-- The pings built so far, written or skipped. -/
def pings (x : Session Address) : ℕ := x.ticks / x.period

def Overdue (now : ℤ) (x : Session Address) : Prop :=
  x.timeOfLastMessageFromOther ≠ -1 ∧
    now > x.timeOfLastMessageFromOther + x.interval.toNat + maxTimeLateMs

instance (now : ℤ) (x : Session Address) : Decidable (Overdue now x) :=
  inferInstanceAs (Decidable (_ ∧ _))

def Dead (now : ℤ) (x : Session Address) : Prop :=
  now - x.timeOfLastRealMessageFromOther ≥ Server.clientTimeoutMs

/-- The ping that every `period`-th base tick builds. -/
def ping (uniqueId : UInt64) (x : Session Address) : PingMessage :=
  ⟨uniqueId, UInt64.ofNat x.pings, ofResults x.written x.results⟩

def tick (skipMessage : Bool) (uniqueId : UInt64) (x : Session Address) :
    Session Address × List (Effect Address) :=
  let ticked := { x with ticks := x.ticks + 1 }
  if x.period ∣ x.ticks + 1 then
    if skipMessage then (ticked, [.skipPing (x.ping uniqueId)])
    else
      ({ ticked with written := x.written + 1 },
        [.writeDatagram (.ping (x.ping uniqueId)) x.address x.port,
          .pingStats uniqueId .addPacketSent])
  else (ticked, [])

def lose (now : ℤ) (uniqueId : UInt64) (x : Session Address) :
    Session Address × List (Effect Address) :=
  if Overdue now x then
    ({ x with
        results := x.results ++ [false]
        timeOfLastMessageFromOther := x.timeOfLastMessageFromOther + x.interval.toNat },
      [.pingStats uniqueId (.addResult false)])
  else (x, [])

def hear (now now' : ℤ) (uniqueId counter : UInt64) (x : Session Address) :
    Session Address × List (Effect Address) :=
  let heard := { x with
    timeOfLastMessageFromOther := now
    timeOfLastRealMessageFromOther := now' }
  if expected x.results > counter then (heard, [])
  else
    ({ heard with results := x.results ++ news counter x.results },
      (recording (news counter x.results)).map (.pingStats uniqueId))

def step (uniqueId : UInt64) (e : ClientInfo.Event) (x : Session Address) :
    Session Address × List (Effect Address) :=
  match e with
  | .pingTick skipMessage => x.tick skipMessage uniqueId
  | .timeoutTick now => x.lose now uniqueId
  | .receivedPing now now' counter => x.hear now now' uniqueId counter

/-! ### The record of a session -/

/-- What the server keeps of a session. -/
def record (x : Session Address) : ClientInfo Address where
  address := x.address
  port := x.port
  messageCounter := UInt64.ofNat x.pings
  messageCounterOtherNextExpected := expected x.results
  interval := x.interval
  intervalCounter := UInt32.ofNat (x.ticks % x.period)
  timeOfLastMessageFromOther := x.timeOfLastMessageFromOther
  timeOfLastRealMessageFromOther := x.timeOfLastRealMessageFromOther
  pingStats := ofResults x.written x.results

theorem record_new (address : Address) (port : UInt16) {interval : UInt32}
    (accepted : interval % Server.baseTimerInterval = 0) (now : ℤ) :
    (Session.new address port interval accepted now).record = .new address port interval now := by
  simp [record, new, pings, expected, ofResults, ClientInfo.new]
  rfl

theorem period_pos (x : Session Address) : 0 < x.period := by
  rw [period]
  omega

theorem interval_eq (x : Session Address) : x.interval.toNat = 250 * (x.interval.toNat / 250) := by
  have haccepted := congrArg UInt32.toNat x.accepted
  simp only [Server.baseTimerInterval, UInt32.toNat_mod, UInt32.reduceToNat] at haccepted
  omega

/-- The record completes its interval when the session completes its period. -/
theorem tick_complete (x : Session Address) :
    (x.record.intervalCounter + 1) * Server.baseTimerInterval ≥ x.record.interval ↔
      x.period ∣ x.ticks + 1 := by
  have hinterval := x.interval_eq
  have hmod := Nat.mod_lt x.ticks x.period_pos
  have hbound := x.interval.toNat_lt
  by_cases hzero : x.interval.toNat / 250 = 0
  · -- without an interval every tick completes one
    have hx : x.interval = 0 := UInt32.toNat_inj.mp (by simp; omega)
    have hperiod : x.period = 1 := by rw [period, hzero]; rfl
    refine iff_of_true ?_ (by rw [hperiod]; exact one_dvd _)
    rw [ge_iff_le, show x.record.interval = 0 from hx]
    exact UInt32.zero_le
  · have hperiod : x.period = x.interval.toNat / 250 := by
      rw [period]
      omega
    have hcounter : x.record.intervalCounter.toNat = x.ticks % x.period := by
      rw [record, UInt32.toNat_ofNat_of_lt' (by simp only [UInt32.size]; omega)]
    have hticking : ClientInfo.Ticking x.period x.record :=
      ⟨by rw [hperiod]; exact hinterval, by rw [hcounter]; exact hmod⟩
    rw [hticking.tick_complete, hcounter, Nat.dvd_iff_mod_eq_zero, Nat.add_mod]
    rcases Nat.eq_or_lt_of_le (show 1 ≤ x.period from x.period_pos) with hone | hmany
    · rw [← hone] at hmod ⊢
      omega
    · rw [Nat.mod_eq_of_lt hmany]
      constructor
      · intro h
        rw [h, Nat.mod_self]
      · intro h
        by_contra hne
        rw [Nat.mod_eq_of_lt (by omega)] at h
        omega

/-! ### Steps -/

theorem record_complete (hperiod : x.period ∣ x.ticks + 1) :
    ({ x with ticks := x.ticks + 1 } : Session Address).record =
      { x.record with messageCounter := x.record.messageCounter + 1, intervalCounter := 0 } := by
  have hpings : (x.ticks + 1) / x.period = x.pings + 1 := Nat.succ_div_of_dvd hperiod
  have hmod : (x.ticks + 1) % x.period = 0 := Nat.mod_eq_zero_of_dvd hperiod
  have hcount : UInt64.ofNat ((x.ticks + 1) / x.period) = UInt64.ofNat x.pings + 1 := by
    rw [hpings, UInt64.ofNat_add]
    rfl
  change { x.record with
    messageCounter := UInt64.ofNat ((x.ticks + 1) / x.period)
    intervalCounter := UInt32.ofNat ((x.ticks + 1) % x.period) } = _
  rw [hcount, hmod]
  rfl

theorem record_incomplete (hperiod : ¬ x.period ∣ x.ticks + 1) :
    ({ x with ticks := x.ticks + 1 } : Session Address).record =
      { x.record with intervalCounter := x.record.intervalCounter + 1 } := by
  have hpings : (x.ticks + 1) / x.period = x.pings := Nat.succ_div_of_not_dvd hperiod
  have hmod : (x.ticks + 1) % x.period = x.ticks % x.period + 1 := by
    have hbefore := Nat.div_add_mod x.ticks x.period
    have hafter := Nat.div_add_mod (x.ticks + 1) x.period
    rw [hpings, pings] at hafter
    omega
  have hcount :
      UInt32.ofNat ((x.ticks + 1) % x.period) = UInt32.ofNat (x.ticks % x.period) + 1 := by
    rw [hmod, UInt32.ofNat_add]
    rfl
  change { x.record with
    messageCounter := UInt64.ofNat ((x.ticks + 1) / x.period)
    intervalCounter := UInt32.ofNat ((x.ticks + 1) % x.period) } = _
  rw [hpings, hcount]
  rfl

theorem record_tick (skipMessage : Bool) (uniqueId : UInt64) (x : Session Address) :
    x.record.pingTick skipMessage uniqueId =
      ((x.tick skipMessage uniqueId).1.record, (x.tick skipMessage uniqueId).2) := by
  by_cases hperiod : x.period ∣ x.ticks + 1
  · have hif := x.tick_complete.mpr hperiod
    have hrecord := record_complete hperiod
    cases skipMessage with
    | true =>
      simp only [ClientInfo.pingTick, if_pos hif, tick, if_pos hperiod]
      exact Prod.ext hrecord.symm rfl
    | false =>
      have hsent : ({ x with
          ticks := x.ticks + 1
          written := x.written + 1 } : Session Address).record =
            { ({ x with ticks := x.ticks + 1 } : Session Address).record with
              pingStats := (ofResults x.written x.results).addPacketSent } := by
        rw [← ofResults_succ]
        simp [record, period, pings, expected]
      simp only [ClientInfo.pingTick, if_pos hif, tick, if_pos hperiod]
      rw [hrecord] at hsent
      exact Prod.ext hsent.symm rfl
  · have hif := x.tick_complete.not.mpr hperiod
    simp only [ClientInfo.pingTick, if_neg hif, tick, if_neg hperiod, record_incomplete hperiod]

/-- Results are added to the record as the calls on its reception add them. -/
theorem record_results (l : List Bool) (x : Session Address) :
    ({ x with results := x.results ++ l } : Session Address).record =
      x.record.setReception (x.record.reception.after (recording l)) := by
  have hafter : x.record.reception.after (recording l) = _ :=
    Reception.after_recording x.written x.results l
  rw [hafter]
  rfl

theorem record_lose (now : ℤ) (uniqueId : UInt64) (x : Session Address) :
    x.record.timeoutTick now uniqueId =
      ((x.lose now uniqueId).1.record, (x.lose now uniqueId).2) := by
  by_cases hover : x.Overdue now
  · have hif : ClientInfo.Overdue now x.record := hover
    have hlost : x.record.setReception x.record.reception.markLost.1 =
        ({ x with results := x.results ++ [false] } : Session Address).record :=
      (record_results [false] x).symm
    rw [ClientInfo.timeoutTick, if_pos hif, lose, if_pos hover, hlost]
    rfl
  · have hif : ¬ ClientInfo.Overdue now x.record := hover
    rw [ClientInfo.timeoutTick, if_neg hif, lose, if_neg hover]

theorem record_hear (now now' : ℤ) (uniqueId counter : UInt64) (x : Session Address) :
    x.record.receivedPing now now' uniqueId counter =
      ((x.hear now now' uniqueId counter).1.record, (x.hear now now' uniqueId counter).2) := by
  by_cases hseen : expected x.results > counter
  · have hif : x.record.messageCounterOtherNextExpected > counter := hseen
    rw [ClientInfo.receivedPing, if_pos hif, hear, if_pos hseen]
    rfl
  · have hif : ¬ x.record.messageCounterOtherNextExpected > counter := hseen
    have hcalls : (x.record.reception.markSeen counter).2 = recording (news counter x.results) :=
      Reception.markSeen_recording counter _ x.results
    have hreceived : x.record.setReception (x.record.reception.markSeen counter).1 =
        ({ x with results := x.results ++ news counter x.results } : Session Address).record := by
      rw [Reception.markSeen_after, hcalls, record_results]
    rw [ClientInfo.receivedPing, if_neg hif, hear, if_neg hseen, hcalls, hreceived]
    rfl

/-- The record does what the session does. -/
theorem record_step (uniqueId : UInt64) (e : ClientInfo.Event) (x : Session Address) :
    x.record.step uniqueId e = ((x.step uniqueId e).1.record, (x.step uniqueId e).2) := by
  cases e with
  | pingTick skipMessage => exact record_tick skipMessage uniqueId x
  | timeoutTick now => exact record_lose now uniqueId x
  | receivedPing now now' counter => exact record_hear now now' uniqueId counter x

theorem record_run (uniqueId : UInt64) (events : List ClientInfo.Event) (x : Session Address) :
    Trace.run (ClientInfo.step uniqueId) events x.record =
      ((Trace.run (step uniqueId) events x).1.record, (Trace.run (step uniqueId) events x).2) :=
  Trace.run_commute (record_step uniqueId) events x

end Session

end PacketLossUtils
