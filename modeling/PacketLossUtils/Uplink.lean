import Mathlib.Logic.Relation
import PacketLossUtils.ClientRun
import PacketLossUtils.Lib.Watchdog
import PacketLossUtils.ServerRun

/-! The pings of a client whose timer is never delayed, on their way to a server that may look
for timeouts at any time. -/
namespace PacketLossUtils

open Effect NetworkCore PingStats Relation Watchdog

variable {Address : Type}

/-! ### The pings of one firing -/

namespace Client

theorem range_numbers (n : ℕ) (a : UInt64) :
    (List.range (n + 1)).map (fun j => a + UInt64.ofNat j) =
      a :: (List.range n).map (fun j => a + 1 + UInt64.ofNat j) := by
  rw [List.range_succ_eq_map, List.map_cons, List.map_map]
  congr 1
  · simp
  · refine List.map_congr_left fun j _ => ?_
    simp [UInt64.ofNat_add, UInt64.add_assoc, UInt64.add_comm]

theorem pingRounds_written (now : ℤ) (rounds : List ℕ) (c : Client Address) :
    let out := Trace.run (fun _ => pingRound now false) rounds c
    out.1.messageCounter = c.messageCounter + UInt64.ofNat rounds.length ∧
      (written c.uniqueId out.2).map PingMessage.counter =
        (List.range rounds.length).map (fun j => c.messageCounter + UInt64.ofNat j) := by
  induction rounds generalizing c with
  | nil => simp
  | cons i rounds ih =>
    obtain ⟨hcounter, hwritten⟩ := ih (pingRound now false c).1
    rw [Trace.run_cons, List.length_cons, range_numbers]
    refine ⟨hcounter.trans ?_, ?_⟩
    · simp [pingRound, UInt64.ofNat_add, UInt64.add_assoc, UInt64.add_comm]
    · have hfirst : (written c.uniqueId (pingRound now false c).2).map PingMessage.counter =
          [c.messageCounter] := by
        simp [pingRound, write]
      rw [written_append, List.map_append, hfirst]
      exact congrArg (c.messageCounter :: ·) hwritten

theorem pingRounds_nextPingTime (now : ℤ) (skipMessage : Bool) {rounds : List ℕ}
    (hne : rounds ≠ []) (c : Client Address) :
    (Trace.run (fun _ => pingRound now skipMessage) rounds c).1.nextPingTime =
      now + c.interval.toNat := by
  induction rounds generalizing c with
  | nil => exact (hne rfl).elim
  | cons i rounds ih =>
    rw [Trace.run_cons]
    rcases eq_or_ne rounds [] with rfl | hrest
    · simp only [Trace.run_nil, pingRound]
      split <;> rfl
    · rw [ih hrest, (pingRound_frame now skipMessage c).1.interval]

/-- A firing that is not late writes at least one ping and skips none. -/
theorem onPingTimer_punctual {now : ℤ} {c : Client Address}
    (hpunctual : skipMessage now c.nextPingTime = false) :
    SameSetup c (c.onPingTimer now).1 ∧
      (c.onPingTimer now).1.nextPingTime = now + c.interval.toNat ∧
      ∃ k, (c.onPingTimer now).1.messageCounter = c.messageCounter + UInt64.ofNat (k + 1) ∧
        (written c.uniqueId (c.onPingTimer now).2).map PingMessage.counter =
          (List.range (k + 1)).map (fun j => c.messageCounter + UInt64.ofNat j) := by
  rw [onPingTimer, hpunctual, numPingsMissed]
  generalize (now - c.nextPingTime).natAbs / c.interval.toNat = k
  obtain ⟨hcounter, hwritten⟩ := pingRounds_written now (List.range (k + 1)) c
  rw [List.length_range] at hcounter hwritten
  exact ⟨(pingRounds_frame now false _ c).1,
    pingRounds_nextPingTime now false (by simp) c, k, hcounter, hwritten⟩

end Client

/-! ### The link -/

/-- The pings under way come with their arrival times on the server's clock. -/
structure Uplink (Address : Type) where
  client : Client Address
  server : Server Address
  serverLog : List (Effect Address)
  inFlight : List (PingMessage × ℤ)
  clock : ℤ
  delivered : ℕ

namespace Uplink

def record (u : Uplink Address) : Option (ClientInfo Address) :=
  u.server.clientInfos[u.client.uniqueId]?

/-- What the server notes about the client. -/
def calls (u : Uplink Address) : List Call := Effect.calls u.client.uniqueId u.serverLog

/-- `delay` is the time under way and the difference between the clocks. -/
def fire (delay now : ℤ) (u : Uplink Address) : Uplink Address :=
  { u with
    client := (u.client.onPingTimer now).1
    inFlight := u.inFlight ++
      (written u.client.uniqueId (u.client.onPingTimer now).2).map fun m => (m, now + delay) }

def timeout (now : ℕ → ℤ) (nowStart clock : ℤ) (u : Uplink Address) : Uplink Address :=
  { u with
    server := (u.server.onTimeoutTimer now nowStart).1
    serverLog := u.serverLog ++ (u.server.onTimeoutTimer now nowStart).2
    clock := clock }

def deliver (address : Address) (port : UInt16) (m : PingMessage) (arrival : ℤ)
    (rest : List (PingMessage × ℤ)) (u : Uplink Address) : Uplink Address :=
  { u with
    server := (u.server.receivedMessage arrival arrival address port (.ping m)).1
    serverLog := u.serverLog ++
      (u.server.receivedMessage arrival arrival address port (.ping m)).2
    inFlight := rest
    clock := arrival
    delivered := u.delivered + 1 }

/-- The client is never late, and a ping is handled when it arrives. The readings of the timeouts
may come in any order up to the arrival of the next ping. -/
inductive Step (delay : ℤ) (u : Uplink Address) : Uplink Address → Prop
  | fire (now : ℤ) (hpunctual : Client.skipMessage now u.client.nextPingTime = false) :
      Step delay u (u.fire delay now)
  | timeout (now : ℕ → ℤ) (nowStart clock : ℤ) (hclock : u.clock ≤ clock)
      (hnow : ∀ i, now i ≤ clock) :
      Step delay u (u.timeout now nowStart clock)
  | deliver (address : Address) (port : UInt16) {m : PingMessage} {arrival : ℤ}
      {rest : List (PingMessage × ℤ)} (hflight : u.inFlight = (m, arrival) :: rest)
      (hclock : u.clock ≤ arrival) :
      Step delay u (u.deliver address port m arrival rest)

/-- The server has just registered the client, which has not sent a ping. -/
structure Start (u : Uplink Address) : Prop where
  interval : 0 < u.client.interval
  messageCounter : u.client.messageCounter = 0
  record : ∃ address port now, u.record = some (.new address port u.client.interval now)
  serverLog : u.serverLog = []
  inFlight : u.inFlight = []
  delivered : u.delivered = 0

/-- The record of a client of which `delivered` pings have come, the latest of them at the time
`before`. -/
structure Watched (p : UInt32) (delivered : ℕ) (before : Option ℤ) (clock : ℤ)
    (calls : List Call) (c : ClientInfo Address) : Prop where
  interval : c.interval = p
  reception : c.reception = Reception.fresh.after calls
  received : calls.count .addPacketReceived = delivered
  silent : before = none → c.timeOfLastMessageFromOther = -1
  tracks : Tracks p.toNat maxTimeLateMs (List.replicate delivered true) before clock
    c.timeOfLastMessageFromOther (results calls)

variable {u v : Uplink Address} {c c' : ClientInfo Address} {p : UInt32} {delivered : ℕ}
  {before : Option ℤ} {clock now delay : ℤ} {calls : List Call} {uniqueId : UInt64}

theorem Watched.timeoutTick (h : Watched p delivered before clock calls c) (hnow : now ≤ clock) :
    Watched p delivered before clock
      (calls ++ Effect.calls uniqueId (c.timeoutTick now uniqueId).2)
      (c.timeoutTick now uniqueId).1 := by
  simp only [ClientInfo.timeoutTick]
  split
  · rename_i hover
    obtain ⟨hstarted, hlate⟩ := hover
    cases before with
    | none => exact (hstarted (h.silent rfl)).elim
    | some since =>
      rw [h.interval] at hlate
      rw [calls_map_pingStats]
      refine ⟨h.interval, ?_, ?_, by simp, ?_⟩
      · rw [Reception.after_append, ← h.reception]
        rfl
      · rw [List.count_append, h.received]
        rfl
      · rw [results_append, h.interval]
        exact h.tracks.miss hlate hnow
  · simpa using h

theorem Watched.swept {after : Option (ClientInfo Address)} {log : List (Effect Address)}
    (h : Watched p delivered before clock calls c)
    (hswept : Server.Swept uniqueId (fun t => t ≤ clock) (some c) after log) :
    ∀ c', after = some c' →
      Watched p delivered before clock (calls ++ Effect.calls uniqueId log) c' := by
  rintro c' rfl
  obtain ⟨events, hevents, hrun⟩ := hswept.events
  have hwatched : Watched p delivered before clock
      (calls ++ Effect.calls uniqueId (Trace.run (ClientInfo.step uniqueId) events c).2)
      (Trace.run (ClientInfo.step uniqueId) events c).1 := by
    apply Trace.run_invariant (I := fun (c' : ClientInfo Address) log =>
      Watched p delivered before clock (calls ++ Effect.calls uniqueId log) c')
    · simpa using h
    · intro x hx c' log h
      obtain ⟨t, ht, rfl⟩ := hevents x hx
      rw [calls_append, ← List.append_assoc]
      exact h.timeoutTick ht
  rwa [hrun] at hwatched

/-- A ping that comes before the next miss is recorded. -/
theorem Watched.receivedPing {m : PingMessage} {arrival : ℤ}
    (h : Watched p delivered before clock calls c) (hcounter : m.counter = UInt64.ofNat delivered)
    (hresults : results calls = List.replicate delivered true) :
    Watched p (delivered + 1) (some arrival) arrival
      (calls ++ Effect.calls uniqueId (c.receivedPing arrival arrival uniqueId m.counter).2)
      (c.receivedPing arrival arrival uniqueId m.counter).1 ∧
    results (calls ++ Effect.calls uniqueId
      (c.receivedPing arrival arrival uniqueId m.counter).2) =
        List.replicate (delivered + 1) true := by
  have hexpected : c.reception.messageCounterOtherNextExpected = 0 + UInt64.ofNat delivered := by
    rw [h.reception]
    simp [Reception.after, Reception.fresh, hresults]
  obtain ⟨hnot, hseen⟩ := Reception.accepts (d := 0) hexpected (.inl rfl)
  rw [Nat.add_zero, UInt64.zero_add, ← hcounter] at hnot hseen
  have hdropped : ¬ c.messageCounterOtherNextExpected > m.counter := hnot
  simp only [ClientInfo.receivedPing, if_neg hdropped, calls_map_pingStats]
  have hnext : results (calls ++ (c.reception.markSeen m.counter).2) =
      List.replicate (delivered + 1) true := by
    rw [results_append, hresults, hseen]
    exact List.replicate_succ'.symm
  refine ⟨⟨h.interval, ?_, ?_, by simp, ?_⟩, hnext⟩
  · rw [Reception.after_append, ← h.reception, ← Reception.markSeen_after]
    rfl
  · rw [List.count_append, h.received, Reception.markSeen_calls]
    simp [List.count_replicate]
  · rw [hnext]
    exact tracks_arrival _ _ arrival _ _

/-- The pings under way, the client's schedule and the record. -/
structure Inv (p : UInt32) (delay : ℤ) (sent : ℕ) (before after : Option ℤ)
    (u : Uplink Address) : Prop where
  interval : u.client.interval = p
  messageCounter : u.client.messageCounter = UInt64.ofNat sent
  uniqueIds : ∀ x ∈ u.inFlight, x.1.uniqueId = u.client.uniqueId
  paced : Paced p.toNat maxTimeLateMs (fun _ n => n = 0) UInt64.ofNat
    (List.replicate u.delivered true) before (u.inFlight.map fun x => (x.1.counter, x.2))
    (List.replicate sent true) after
  nextPingTime : ∀ a ∈ after, u.client.nextPingTime + delay = a + p.toNat
  record : ∀ c, u.record = some c → Watched p u.delivered before u.clock u.calls c

theorem Start.inv (h : Start u) : Inv u.client.interval delay 0 none none u where
  interval := rfl
  messageCounter := h.messageCounter
  uniqueIds := by simp [h.inFlight]
  paced := by
    rw [h.inFlight, h.delivered]
    exact .nil _ _
  nextPingTime := by simp
  record := by
    obtain ⟨address, port, now, hnew⟩ := h.record
    rintro c hc
    obtain rfl := Option.some.inj (hnew.symm.trans hc)
    have hcalls : u.calls = [] := by rw [Uplink.calls, h.serverLog, calls_nil]
    rw [h.delivered, hcalls]
    exact ⟨rfl, rfl, rfl, fun _ => rfl, rfl⟩

section Step

variable {sent : ℕ} {after : Option ℤ}

/-- The client's tolerance is the server's, so the ping is due no later than the server allows. -/
theorem Inv.fire (h : Inv p delay sent before after u)
    (hpunctual : Client.skipMessage now u.client.nextPingTime = false) :
    ∃ sent' after', Inv p delay sent' before after' (u.fire delay now) := by
  obtain ⟨hsetup, hnext, k, hcounter, hwritten⟩ := Client.onPingTimer_punctual hpunctual
  have hontime : now ≤ u.client.nextPingTime + maxTimeLateMs := by
    simpa [Client.skipMessage] using hpunctual
  rw [h.interval] at hnext
  rw [h.messageCounter] at hcounter hwritten
  have hdue : ∀ since ∈ after,
      now + delay ≤ since + (p.toNat : ℤ) * ((0 : ℕ) + 1) + maxTimeLateMs := by
    intro since hsince
    have := h.nextPingTime since hsince
    push_cast
    linarith
  have hburst := h.paced.burst rfl (fun _ => rfl) hdue (by simp only [maxTimeLateMs]; omega) k
  refine ⟨sent + (k + 1), some (now + delay), hsetup.interval.trans h.interval, ?_, ?_, ?_, ?_, ?_⟩
  · rw [UInt64.ofNat_add]
    exact hcounter
  · intro x hx
    rw [Uplink.fire, hsetup.uniqueId]
    rcases List.mem_append.mp hx with hx | hx
    · exact h.uniqueIds x hx
    · obtain ⟨m, hm, rfl⟩ := List.mem_map.mp hx
      exact (exists_of_mem_written hm).1
  · have hqueue : (u.fire delay now).inFlight.map (fun x => (x.1.counter, x.2)) =
        u.inFlight.map (fun x => (x.1.counter, x.2)) ++
          (List.range (k + 1)).map fun j => (UInt64.ofNat (sent + j), now + delay) := by
      have hpairs := congrArg (List.map fun n : UInt64 => (n, now + delay)) hwritten
      simpa [Uplink.fire, Function.comp_def, UInt64.ofNat_add] using hpairs
    rw [hqueue]
    change Paced _ _ _ _ (List.replicate u.delivered true) _ _ _ _
    simpa using hburst
  · intro a ha
    obtain rfl := Option.some.inj ha
    rw [Uplink.fire, hnext]
    ring
  · intro c hc
    simp only [Uplink.record, Uplink.fire, Uplink.calls, hsetup.uniqueId] at hc ⊢
    exact h.record c hc

theorem Inv.timeout (h : Inv p delay sent before after u) {now : ℕ → ℤ} {nowStart clock : ℤ}
    (hclock : u.clock ≤ clock) (hnow : ∀ i, now i ≤ clock) :
    Inv p delay sent before after (u.timeout now nowStart clock) where
  interval := h.interval
  messageCounter := h.messageCounter
  uniqueIds := h.uniqueIds
  paced := h.paced
  nextPingTime := h.nextPingTime
  record := by
    intro c' hc'
    have hswept := Server.onTimeoutTimer_entry now nowStart u.server u.client.uniqueId
    simp only [Uplink.record, Uplink.timeout] at hc'
    rw [hc'] at hswept
    cases hc : u.record with
    | none =>
      rw [show u.server.clientInfos[u.client.uniqueId]? = none from hc] at hswept
      cases hswept
    | some c =>
      rw [show u.server.clientInfos[u.client.uniqueId]? = some c from hc] at hswept
      have hw := h.record c hc
      have hw' : Watched p u.delivered before clock u.calls c :=
        { hw with tracks := hw.tracks.mono hclock }
      have hbelow := hswept.mono (Q := fun t => t ≤ clock) (by
        rintro t ⟨i, rfl⟩
        exact hnow i)
      have hout := hw'.swept hbelow c' rfl
      rw [calls_about] at hout
      rw [Uplink.calls, Uplink.timeout, calls_append]
      exact hout

/-- A ping that is delivered with the next number in line, and none skipped before it. -/
theorem Inv.next (h : Inv p delay sent before after u) {m : PingMessage} {arrival : ℤ}
    {rest : List (PingMessage × ℤ)} (hflight : u.inFlight = (m, arrival) :: rest) :
    m.counter = UInt64.ofNat u.delivered ∧
      (∀ since ∈ before, arrival ≤ since + (p.toNat : ℤ) * ((0 : ℕ) + 1) + maxTimeLateMs) ∧
      Paced p.toNat maxTimeLateMs (fun _ n => n = 0) UInt64.ofNat
        (List.replicate (u.delivered + 1) true) (some arrival)
        (rest.map fun x => (x.1.counter, x.2)) (List.replicate sent true) after := by
  have hpaced := h.paced
  rw [hflight, List.map_cons] at hpaced
  obtain ⟨n, hcounter, rfl, hdue, hrest⟩ := hpaced.uncons
  refine ⟨by simpa using hcounter, hdue, ?_⟩
  rw [List.replicate_succ']
  simpa using hrest

theorem Inv.deliver_record (h : Inv p delay sent before after u) (hp : 0 < p) {address : Address}
    {port : UInt16} {m : PingMessage} {arrival : ℤ} {rest : List (PingMessage × ℤ)}
    (hflight : u.inFlight = (m, arrival) :: rest) (hclock : u.clock ≤ arrival)
    (hc' : (u.deliver address port m arrival rest).record = some c') :
    Watched p (u.delivered + 1) (some arrival) arrival
        (u.deliver address port m arrival rest).calls c' ∧
      results (u.deliver address port m arrival rest).calls =
        List.replicate (u.delivered + 1) true := by
  obtain ⟨hcounter, hdue, -⟩ := h.next hflight
  have hid : m.uniqueId = u.client.uniqueId := h.uniqueIds (m, arrival) (by simp [hflight])
  have hperiod : (0 : ℤ) < p.toNat := by simpa using UInt32.lt_iff_toNat_lt.mp hp
  simp only [Uplink.record, Uplink.calls, Uplink.deliver, ← hid] at hc' ⊢
  cases hc : u.server.clientInfos[m.uniqueId]? with
  | none =>
    rw [Server.receivedMessage_ping_none hc] at hc'
    simp [hc] at hc'
  | some c =>
    rw [Server.receivedMessage_ping hc, Std.ExtTreeMap.getElem?_insert_self] at hc'
    obtain rfl := Option.some.inj hc'
    have hw := h.record c (by rw [Uplink.record, ← hid, hc])
    obtain ⟨lost, hlost, hresults⟩ := hw.tracks.receive hperiod hdue hclock
    rw [Server.receivedMessage_ping hc, Effect.calls_append]
    rw [Uplink.calls, ← hid] at hw hresults
    refine hw.receivedPing hcounter ?_
    simpa [Nat.le_zero.mp hlost] using hresults

theorem Inv.deliver (h : Inv p delay sent before after u) (hp : 0 < p) {address : Address}
    {port : UInt16} {m : PingMessage} {arrival : ℤ} {rest : List (PingMessage × ℤ)}
    (hflight : u.inFlight = (m, arrival) :: rest) (hclock : u.clock ≤ arrival) :
    Inv p delay sent (some arrival) after (u.deliver address port m arrival rest) where
  interval := h.interval
  messageCounter := h.messageCounter
  uniqueIds x hx := h.uniqueIds x (by simp [hflight, show x ∈ rest from hx])
  paced := (h.next hflight).2.2
  nextPingTime := h.nextPingTime
  record _ hc' := (h.deliver_record hp hflight hclock hc').1

theorem Inv.of_run (hrun : ReflTransGen (Step delay) u v) (h : Start u) :
    ∃ sent before after, Inv u.client.interval delay sent before after v := by
  induction hrun with
  | refl => exact ⟨0, none, none, h.inv⟩
  | tail _ hstep ih =>
    obtain ⟨sent, before, after, hinv⟩ := ih
    cases hstep with
    | fire now hpunctual =>
      obtain ⟨sent', after', hinv'⟩ := hinv.fire hpunctual
      exact ⟨sent', before, after', hinv'⟩
    | timeout now nowStart clock hclock hnow =>
      exact ⟨sent, before, after, hinv.timeout hclock hnow⟩
    | deliver address port hflight hclock =>
      exact ⟨sent, _, after, hinv.deliver h.interval hflight hclock⟩

end Step

/-- After each delivery that finds the client registered, every ping so far has been recorded as
received and nothing else has been recorded. -/
theorem no_false_loss (hstart : Start u) (hrun : ReflTransGen (Step delay) u v)
    {address : Address} {port : UInt16} {m : PingMessage} {arrival : ℤ}
    {rest : List (PingMessage × ℤ)} (hflight : v.inFlight = (m, arrival) :: rest)
    (hclock : v.clock ≤ arrival)
    (hc : (v.deliver address port m arrival rest).record = some c) :
    let after := v.deliver address port m arrival rest
    c.pingStats = replay after.calls ∧ results after.calls = List.replicate after.delivered true ∧
      after.calls.count .addPacketReceived = after.delivered ∧
      c.messageCounterOtherNextExpected = UInt64.ofNat after.delivered ∧
      c.pingStats.packetsReceived = UInt64.ofNat after.delivered ∧
      c.pingStats.storedBitCount = (min after.delivered maxBitCount : ℕ) := by
  obtain ⟨sent, before, after, hinv⟩ := Inv.of_run hrun hstart
  obtain ⟨hw, hresults⟩ := hinv.deliver_record hstart.interval hflight hclock hc
  have hstats : c.pingStats = replay (v.deliver address port m arrival rest).calls :=
    congrArg Reception.pingStats hw.reception
  refine ⟨hstats, hresults, hw.received, ?_, ?_, ?_⟩
  · have hexpected := congrArg Reception.messageCounterOtherNextExpected hw.reception
    rw [Reception.after, hresults, List.length_replicate] at hexpected
    exact hexpected.trans (UInt64.zero_add _)
  · rw [hstats, packetsReceived_replay, hw.received]
    rfl
  · rw [hstats, (represents_replay _).stored, hresults, List.length_replicate]
    rfl

/-! ### Two pings -/

/-- A client that registered and connected at the time 0. -/
def justRegistered : Uplink ℕ where
  client := ((Client.new 1 9000 250 7).connect (fun _ => some 1) 0 0).1.1
  server := (Server.receivedMessage 0 0 2 5000 (.welcome (.new 7 250)) .new).1
  serverLog := []
  inFlight := []
  clock := 0
  delivered := 0

theorem start_justRegistered : Start justRegistered where
  interval := by decide
  messageCounter := rfl
  record := ⟨2, 5000, 0, rfl⟩
  serverLog := rfl
  inFlight := rfl
  delivered := rfl

/-- The first ping takes 5 ms. The second one is sent 60 ms late, and the server looks for timeouts
until just before it comes. -/
def secondOnItsWay : Uplink ℕ :=
  (((justRegistered.fire 5 250).deliver 2 5000 ⟨7, 0, .initialized⟩ 255 []).fire 5 560).timeout
    (fun _ => 564) 564 564

theorem no_false_loss_two_pings :
    let after := secondOnItsWay.deliver 2 5000 ⟨7, 1, .initialized⟩ 565 []
    ∃ c, after.record = some c ∧ results after.calls = [true, true] ∧
      c.messageCounterOtherNextExpected = 2 ∧ c.pingStats.storedBitCount = 2 := by
  obtain ⟨c, hc⟩ : ∃ c, (secondOnItsWay.deliver 2 5000 ⟨7, 1, .initialized⟩ 565 []).record =
      some c :=
    Option.isSome_iff_exists.mp (by decide +kernel)
  have hfirst : (justRegistered.fire 5 250).inFlight = [(⟨7, 0, .initialized⟩, 255)] := rfl
  have hflight : secondOnItsWay.inFlight = [(⟨7, 1, .initialized⟩, 565)] := by decide +kernel
  have hrun : ReflTransGen (Step 5) justRegistered secondOnItsWay :=
    .tail (.tail (.tail (.single (.fire 250 rfl)) (.deliver 2 5000 hfirst (by decide)))
      (.fire 560 (by decide +kernel))) (.timeout _ 564 564 (by decide) (fun _ => le_rfl))
  obtain ⟨-, hresults, -, hexpected, -, hstored⟩ :=
    no_false_loss start_justRegistered hrun hflight (by decide) hc
  exact ⟨c, hc, hresults, hexpected, hstored⟩

end Uplink

end PacketLossUtils
