import Mathlib.Logic.Relation
import PacketLossUtils.ClientRun
import PacketLossUtils.Lib.Watchdog
import PacketLossUtils.Ticks

/-! The pings of the server to one client, when the server's timer may be late and the client
may look for timeouts at any time. -/
namespace PacketLossUtils

open Effect NetworkCore PingStats Relation Watchdog

variable {Address : Type}

/-- The pings under way come with their arrival times on the client's clock. The client's
timeouts count from `since` on. The pings written last arrive at `lastWritten`, and `skipped` pings
have been skipped since. -/
structure Downlink (Address : Type) where
  server : Server Address
  client : Client Address
  serverLog : List (Effect Address)
  clientLog : List (Effect Address)
  inFlight : List (PingMessage × ℤ)
  firing : ℤ
  clock : ℤ
  since : Option ℤ
  lastWritten : Option ℤ
  skipped : ℕ

namespace Downlink

/-- The server's record of the client. -/
def record (u : Downlink Address) : Option (ClientInfo Address) :=
  u.server.clientInfos[u.client.uniqueId]?

/-- What the client notes about the server. -/
def calls (u : Downlink Address) : List Call := Effect.calls u.client.uniqueId u.clientLog

/-- Which of the pings built for the client were written. -/
def fates (u : Downlink Address) : List Bool := Effect.fates u.client.uniqueId u.serverLog

/-- The pings that a firing writes to the client. -/
def pings (now : ℤ) (u : Downlink Address) : List PingMessage :=
  written u.client.uniqueId (u.server.onPingTimer now).2

/-- The intervals of the client that the base ticks of a firing complete. -/
def completed (now : ℤ) (u : Downlink Address) : ℕ :=
  match u.record with
  | some c =>
    250 * (c.intervalCounter.toNat + Server.numPingsMissed now u.server.nextPingTime) /
      c.interval.toNat
  | none => 0

/-- A firing that is not treated as delayed. -/
def Punctual (u : Downlink Address) (now : ℤ) : Prop :=
  Server.skipMessage now u.server.nextPingTime = false

/-- A firing that writes to the client. -/
def Writes (u : Downlink Address) (now : ℤ) : Prop := u.Punctual now ∧ 0 < u.completed now

instance (u : Downlink Address) (now : ℤ) : Decidable (u.Writes now) :=
  inferInstanceAs (Decidable (_ = _ ∧ _ < _))

def fire (delay now : ℤ) (u : Downlink Address) : Downlink Address :=
  { u with
    server := (u.server.onPingTimer now).1
    serverLog := u.serverLog ++ (u.server.onPingTimer now).2
    inFlight := u.inFlight ++ (u.pings now).map fun m => (m, now + delay)
    firing := now
    lastWritten := if u.Writes now then some (now + delay) else u.lastWritten
    skipped := if u.Writes now then 0 else u.skipped + u.completed now }

def timeout (now : ℤ) (u : Downlink Address) : Downlink Address :=
  { u with
    client := (u.client.onTimeoutTimer now).1
    clientLog := u.clientLog ++ (u.client.onTimeoutTimer now).2
    clock := now }

/-- The time by which the client must have the next ping, at whatever times it looks for
timeouts: every skipped ping has given it one interval more. -/
def deadline (since : ℤ) (u : Downlink Address) : ℤ :=
  since + u.client.interval.toNat * (u.skipped + 1) + maxTimeLateMs

/-- A firing that writes to the client does so by the deadline, and skipped pings have not
carried the message counter past its largest value. -/
def InTime (delay : ℤ) (u : Downlink Address) (now : ℤ) : Prop :=
  u.Writes now → (∀ a ∈ u.lastWritten, now + delay ≤ u.deadline a) ∧
    ∀ c ∈ u.record, u.skipped ≤ c.messageCounter.toNat

section

variable [HostAddress Address]

def deliver (m : PingMessage) (arrival : ℤ) (rest : List (PingMessage × ℤ))
    (u : Downlink Address) : Downlink Address :=
  let received := u.client.receivedMessage arrival u.client.serverHostAddress
    u.client.serverPort (.ping m)
  { u with
    client := received.1
    clientLog := u.clientLog ++ received.2
    inFlight := rest
    clock := arrival
    since := some arrival }

/-- The server's timer fires as `Admits` allows, and a ping is handled when it arrives. -/
inductive Step (Admits : Downlink Address → ℤ → Prop) (delay : ℤ) (u : Downlink Address) :
    Downlink Address → Prop
  | fire (now : ℤ) (hfiring : u.firing ≤ now) (hadmits : Admits u now) :
      Step Admits delay u (u.fire delay now)
  | timeout (now : ℤ) (hclock : u.clock ≤ now) (hsince : u.since.isSome) :
      Step Admits delay u (u.timeout now)
  | deliver {m : PingMessage} {arrival : ℤ} {rest : List (PingMessage × ℤ)}
      (hflight : u.inFlight = (m, arrival) :: rest) (hclock : u.clock ≤ arrival) :
      Step Admits delay u (u.deliver m arrival rest)

/-- The ping is not dropped, and then the client has recorded what became of all pings up to
it. -/
structure Lossless (u : Downlink Address) (m : PingMessage) (arrival : ℤ)
    (rest : List (PingMessage × ℤ)) : Prop where
  accepted : ¬ u.client.messageCounterOtherNextExpected > m.counter
  results : ∃ n, m.counter = UInt64.ofNat n ∧ n < u.fates.length ∧
    results (u.deliver m arrival rest).calls = u.fates.take (n + 1)

end

/-- The server has just registered the client with an interval it accepts. The client's timeouts
count from the connection on, or not until the first ping. -/
structure Start (u : Downlink Address) : Prop where
  multiple : u.client.interval % Server.baseTimerInterval = 0
  least : Server.baseTimerInterval ≤ u.client.interval
  record : ∃ address port now, u.record = some (.new address port u.client.interval now)
  expected : u.client.messageCounterOtherNextExpected = 0
  serverLog : u.serverLog = []
  clientLog : u.clientLog = []
  inFlight : u.inFlight = []
  firing : u.firing ≤ u.server.nextPingTime
  since : ∀ a ∈ u.since, u.client.timeOfLastMessageFromOther = a
  lastWritten : u.lastWritten = u.since
  skipped : u.skipped = 0

/-- A client that has heard of the fates `outcome`, the last of them at the time `since`. -/
structure Watching (k : ℕ) (outcome : List Bool) (since : Option ℤ) (clock : ℤ)
    (calls : List Call) (c : Client Address) : Prop where
  interval : c.interval.toNat = 250 * k
  expected : c.messageCounterOtherNextExpected = UInt64.ofNat (results calls).length
  tracks : Tracks (250 * k) maxTimeLateMs outcome since clock c.timeOfLastMessageFromOther
    (results calls)

/-- From number `i` on, `n` numbers further, without a wrap. -/
def NoWrap (i n : ℕ) : Prop := i % 2 ^ 64 + n < 2 ^ 64

/-- The pings built are those before the last written one, with the fates `outcome'`, and then
the skipped ones. `outcome` are the fates up to the last delivered ping. -/
structure Inv (k : ℕ) (outcome outcome' : List Bool) (c : ClientInfo Address)
    (u : Downlink Address) : Prop where
  record : u.record = some c
  ticking : c.Ticking k
  messageCounter : c.messageCounter = UInt64.ofNat u.fates.length
  fates : u.fates = outcome' ++ List.replicate u.skipped false
  paced : Paced (250 * k) maxTimeLateMs NoWrap UInt64.ofNat outcome u.since
    (u.inFlight.map fun x => (x.1.counter, x.2)) outcome' u.lastWritten
  watching : Watching k outcome u.since u.clock u.calls u.client

variable {u v : Downlink Address} {k : ℕ} {delay now : ℤ} {outcome outcome' : List Bool}
  {c : ClientInfo Address} {Admits : Downlink Address → ℤ → Prop}

theorem Start.inv (h : Start u) : ∃ k c, 0 < k ∧ c.intervalCounter = 0 ∧ Inv k [] [] c u := by
  obtain ⟨address, port, now, hc⟩ := h.record
  have hmultiple := congrArg UInt32.toNat h.multiple
  have hleast := UInt32.le_iff_toNat_le.mp h.least
  simp only [Server.baseTimerInterval, UInt32.toNat_mod, UInt32.reduceToNat] at hmultiple hleast
  obtain ⟨k, hk⟩ := Nat.dvd_of_mod_eq_zero hmultiple
  have hcalls : u.calls = [] := by rw [Downlink.calls, h.clientLog, calls_nil]
  have hfates : u.fates = [] := by rw [Downlink.fates, h.serverLog, fates_nil]
  refine ⟨k, _, by omega, rfl, hc, ⟨hk, ?_⟩, by rw [hfates]; rfl, ?_, ?_, hk, ?_, ?_⟩
  · simp only [ClientInfo.new, UInt32.reduceToNat]
    omega
  · simp [hfates, h.skipped]
  · rw [h.inFlight, h.lastWritten]
    exact .nil _ _
  · rw [h.expected, hcalls]
    rfl
  · rw [hcalls]
    cases ha : u.since with
    | none => rfl
    | some a =>
      rw [h.since a ha]
      exact tracks_arrival _ _ a _ _

/-- A firing builds one ping for each interval it completes. -/
theorem fire_record (delay now : ℤ) (hc : u.record = some c) (ht : c.Ticking k) :
    ∃ c', (u.fire delay now).record = some c' ∧
      ClientInfo.Advances k (Server.skipMessage now u.server.nextPingTime) u.client.uniqueId
        (Server.numPingsMissed now u.server.nextPingTime) (u.completed now) c c'
        (u.server.onPingTimer now).2 := by
  obtain ⟨c', b, hc', hadvances⟩ := Server.onPingTimer_advances now hc ht
  have hinterval := ht.interval
  have hticks := hadvances.intervalCounter
  have hrest := hadvances.ticking.intervalCounter
  have hb : u.completed now = b := by
    simp only [completed, hc]
    rw [hinterval, Nat.mul_div_mul_left _ _ (by decide), ← hticks,
      Nat.add_mul_div_left _ _ (by omega), Nat.div_eq_of_lt hrest, Nat.zero_add]
  rw [hb]
  exact ⟨c', hc', hadvances⟩

theorem fates_fire (delay now : ℤ) (hc : u.record = some c) (ht : c.Ticking k) :
    (u.fire delay now).fates = u.fates ++ List.replicate (u.completed now)
      (!Server.skipMessage now u.server.nextPingTime) := by
  obtain ⟨c', -, hadvances⟩ := fire_record delay now hc ht
  simp only [Downlink.fates, Downlink.fire, fates_append]
  rw [hadvances.fates]

theorem length_pings (now : ℤ) (hc : u.record = some c) (ht : c.Ticking k) :
    (u.pings now).length =
      if Server.skipMessage now u.server.nextPingTime then 0 else u.completed now := by
  obtain ⟨c', -, hadvances⟩ := fire_record 0 now hc ht
  have hwritten : (u.pings now).map PingMessage.counter = _ := hadvances.written
  have hlength := congrArg List.length hwritten
  rw [List.length_map] at hlength
  rw [hlength]
  split <;> simp

/-- A firing that writes nothing is late or completes nothing. -/
theorem not_writes_iff : ¬ u.Writes now ↔
    Server.skipMessage now u.server.nextPingTime = true ∨ u.completed now = 0 := by
  simp only [Writes, Punctual]
  cases Server.skipMessage now u.server.nextPingTime <;> simp

theorem Inv.pings_nil (h : Inv k outcome outcome' c u) (hwrites : ¬ u.Writes now) :
    u.pings now = [] := by
  apply List.eq_nil_of_length_eq_zero
  rw [length_pings now h.record h.ticking]
  rcases not_writes_iff.mp hwrites with hskip | hzero
  · simp [hskip]
  · simp [hzero]

/-- A firing that writes in time lets the client have the first of its pings by the deadline, and
the others with it. -/
theorem Inv.fire_writes (h : Inv k outcome outcome' c u) (hwrites : u.Writes now)
    (htime : u.InTime delay now) :
    ∃ outcome'' c', Inv k outcome outcome'' c' (u.fire delay now) := by
  obtain ⟨c', hc', hadvances⟩ := fire_record delay now h.record h.ticking
  have hfates := fates_fire delay now h.record h.ticking
  have hwritten : (u.pings now).map PingMessage.counter = _ := hadvances.written
  have hlength : u.fates.length = outcome'.length + u.skipped := by simp [h.fates]
  have hlast : (u.fire delay now).lastWritten = some (now + delay) := if_pos hwrites
  have hskipped : (u.fire delay now).skipped = 0 := if_pos hwrites
  obtain ⟨hdue, hwrap⟩ := htime hwrites
  obtain ⟨hpunctual, hpos⟩ := hwrites
  obtain ⟨j, hj⟩ := Nat.exists_eq_add_one_of_ne_zero (Nat.ne_of_gt hpos)
  rw [hpunctual, hj] at hfates hwritten
  rw [if_neg (by simp), h.messageCounter, hlength] at hwritten
  have hnowrap : NoWrap outcome'.length u.skipped := by
    have hle := hwrap c h.record
    rw [h.messageCounter, hlength, UInt64.toNat_ofNat'] at hle
    simp only [NoWrap]
    omega
  have hinterval : (u.client.interval.toNat : ℤ) = 250 * k := by
    exact_mod_cast h.watching.interval
  have hdeadline : ∀ a ∈ u.lastWritten,
      now + delay ≤ a + 250 * (k : ℤ) * (u.skipped + 1) + maxTimeLateMs := by
    intro a ha
    simpa [deadline, hinterval] using hdue a ha
  have hburst := h.paced.burst hnowrap (fun i => Nat.mod_lt i (by decide)) hdeadline
    (by simp only [maxTimeLateMs]; omega) j
  have hqueue : (u.fire delay now).inFlight.map (fun x => (x.1.counter, x.2)) =
      u.inFlight.map (fun x => (x.1.counter, x.2)) ++ (List.range (j + 1)).map
        fun i => (UInt64.ofNat (outcome'.length + u.skipped + i), now + delay) := by
    have hpairs := congrArg (List.map fun n : UInt64 => (n, now + delay)) hwritten
    simpa [Downlink.fire, Function.comp_def, UInt64.ofNat_add] using hpairs
  refine ⟨outcome' ++ List.replicate u.skipped false ++ List.replicate (j + 1) true, c',
    hc', hadvances.ticking, ?_, ?_, ?_, h.watching⟩
  · rw [hadvances.messageCounter, h.messageCounter, hfates, hj, List.length_append,
      List.length_replicate, ← UInt64.ofNat_add]
  · simp [hfates, h.fates, hskipped]
  · rw [hqueue, hlast]
    exact hburst

/-- A firing that writes nothing to the client skips what it completes. -/
theorem Inv.fire_silent (delay : ℤ) (h : Inv k outcome outcome' c u) (hwrites : ¬ u.Writes now) :
    ∃ c', Inv k outcome outcome' c' (u.fire delay now) := by
  obtain ⟨c', hc', hadvances⟩ := fire_record delay now h.record h.ticking
  have hfates := fates_fire delay now h.record h.ticking
  have hlast : (u.fire delay now).lastWritten = u.lastWritten := if_neg hwrites
  have hskipped : (u.fire delay now).skipped = u.skipped + u.completed now := if_neg hwrites
  have hlost : List.replicate (u.completed now)
      (!Server.skipMessage now u.server.nextPingTime) =
        List.replicate (u.completed now) false := by
    rcases not_writes_iff.mp hwrites with hskip | hzero
    · simp [hskip]
    · simp [hzero]
  refine ⟨c', hc', hadvances.ticking, ?_, ?_, ?_, h.watching⟩
  · rw [hadvances.messageCounter, h.messageCounter, hfates, List.length_append,
      List.length_replicate, UInt64.ofNat_add]
  · rw [hfates, hlost, h.fates, hskipped, List.append_assoc, List.replicate_append_replicate]
  · rw [hlast]
    simpa [Downlink.fire, h.pings_nil hwrites] using h.paced

theorem Inv.fire (h : Inv k outcome outcome' c u) (htime : u.InTime delay now) :
    ∃ outcome'' c', Inv k outcome outcome'' c' (u.fire delay now) := by
  by_cases hwrites : u.Writes now
  · exact h.fire_writes hwrites htime
  · exact ⟨outcome', h.fire_silent delay hwrites⟩

/-- With nothing under way, the client has heard of all that was written. -/
theorem Inv.idle (h : Inv k outcome outcome' c u) (hidle : u.inFlight = []) :
    outcome = outcome' ∧ u.since = u.lastWritten := by
  have hpaced := h.paced
  rw [hidle, List.map_nil] at hpaced
  generalize u.since = since, u.lastWritten = last at hpaced
  cases hpaced
  exact ⟨rfl, rfl⟩

theorem Inv.pings_cons (h : Inv k outcome outcome' c u) (hwrites : u.Writes now) :
    ∃ m ms, u.pings now = m :: ms := by
  obtain ⟨hpunctual, hpos⟩ := hwrites
  have hlength := length_pings now h.record h.ticking
  rw [hpunctual, if_neg (by simp)] at hlength
  exact List.exists_cons_of_length_pos (hlength ▸ hpos)

theorem Inv.fates_writes (delay : ℤ) (h : Inv k outcome outcome' c u) (hwrites : u.Writes now) :
    ∃ j, (u.fire delay now).fates =
      outcome' ++ List.replicate u.skipped false ++ List.replicate (j + 1) true := by
  obtain ⟨hpunctual, hpos⟩ := hwrites
  obtain ⟨j, hj⟩ := Nat.exists_eq_add_one_of_ne_zero (Nat.ne_of_gt hpos)
  have hfates := fates_fire delay now h.record h.ticking
  rw [hpunctual, hj, h.fates] at hfates
  exact ⟨j, hfates⟩

/-! ### The client -/

variable {calls : List Call} {since clock arrival : ℤ} {client : Client Address}
  {m : PingMessage} {rest : List (PingMessage × ℤ)}

theorem Watching.onTimeoutTimer (h : Watching k outcome (some since) clock calls client)
    (hclock : clock ≤ now) :
    Watching k outcome (some since) now
      (calls ++ Effect.calls client.uniqueId (client.onTimeoutTimer now).2)
      (client.onTimeoutTimer now).1 := by
  have htracks := h.tracks.mono hclock
  have hinterval : (client.interval.toNat : ℤ) = 250 * k := by exact_mod_cast h.interval
  rw [Client.onTimeoutTimer]
  split
  · rename_i hover
    rw [hinterval] at hover
    rw [calls_map_pingStats]
    refine ⟨h.interval, ?_, ?_⟩
    · rw [results_append, List.length_append, UInt64.ofNat_add, ← h.expected]
      rfl
    · simp only [results_append, hinterval]
      exact htracks.miss hover le_rfl
  · simpa using { h with tracks := htracks }

/-- The next ping to arrive is accepted, and the results are then the fates of all pings up to
it. -/
theorem Watching.receivedPing {before : Option ℤ} {n : ℕ} (hk : 0 < k)
    (h : Watching k outcome before clock calls client)
    (hcounter : m.counter = UInt64.ofNat (outcome.length + n))
    (hdue : ∀ a ∈ before, arrival ≤ a + 250 * (k : ℤ) * (n + 1) + maxTimeLateMs)
    (hclock : clock ≤ arrival) (hwrap : NoWrap outcome.length n) :
    ¬ client.messageCounterOtherNextExpected > m.counter ∧
      results (calls ++ Effect.calls client.uniqueId (client.receivedPing arrival m).2) =
        outcome ++ List.replicate n false ++ [true] ∧
      Watching k (outcome ++ List.replicate n false ++ [true]) (some arrival) arrival
        (calls ++ Effect.calls client.uniqueId (client.receivedPing arrival m).2)
        (client.receivedPing arrival m).1 := by
  obtain ⟨lost, hlost, hresults⟩ := h.tracks.receive (by omega) hdue hclock
  obtain ⟨d, rfl⟩ := Nat.exists_eq_add_of_le hlost
  have hexpected : client.reception.messageCounterOtherNextExpected =
      UInt64.ofNat outcome.length + UInt64.ofNat lost := by
    rw [Client.reception, h.expected, hresults]
    simp [UInt64.ofNat_add]
  have hbound : (UInt64.ofNat outcome.length).toNat + (lost + d) < 2 ^ 64 := by
    simpa [NoWrap] using hwrap
  obtain ⟨hnot, hseen⟩ := Reception.accepts hexpected (.inr hbound)
  rw [← UInt64.ofNat_add, ← hcounter] at hnot hseen
  have haccepted : client.receivedPing arrival m =
      ({ client.setReception (client.reception.markSeen m.counter).1 with
          otherStats := m.pingStats
          timeOfLastMessageFromOther := arrival },
        (client.reception.markSeen m.counter).2.map (.pingStats client.uniqueId)) :=
    if_neg hnot
  have hall : results (calls ++ (client.reception.markSeen m.counter).2) =
      outcome ++ List.replicate (lost + d) false ++ [true] := by
    rw [results_append, hresults, hseen, ← List.replicate_append_replicate]
    simp only [List.append_assoc]
  rw [haccepted, calls_map_pingStats]
  refine ⟨hnot, hall, h.interval, ?_, ?_⟩
  · rw [results_append, List.length_append, UInt64.ofNat_add, ← h.expected]
    exact congrArg Reception.messageCounterOtherNextExpected
      (Reception.markSeen_after m.counter client.reception)
  · rw [hall]
    exact tracks_arrival _ _ arrival _ _

theorem fates_timeout (now : ℤ) (u : Downlink Address) : (u.timeout now).fates = u.fates := by
  simp only [Downlink.fates, Downlink.timeout, Client.onTimeoutTimer]
  split <;> rfl

theorem calls_timeout (now : ℤ) (u : Downlink Address) :
    (u.timeout now).calls =
      u.calls ++ Effect.calls u.client.uniqueId (u.client.onTimeoutTimer now).2 := by
  simp only [Downlink.calls, Downlink.timeout, calls_append, Client.onTimeoutTimer]
  split <;> rfl

theorem record_timeout (now : ℤ) (u : Downlink Address) : (u.timeout now).record = u.record := by
  simp only [Downlink.record, Downlink.timeout, Client.onTimeoutTimer]
  split <;> rfl

theorem Inv.timeout (h : Inv k outcome outcome' c u) (hclock : u.clock ≤ now)
    (hsince : u.since.isSome) : Inv k outcome outcome' c (u.timeout now) where
  record := (record_timeout now u).trans h.record
  ticking := h.ticking
  messageCounter := by
    rw [fates_timeout]
    exact h.messageCounter
  fates := (fates_timeout now u).trans h.fates
  paced := h.paced
  watching := by
    obtain ⟨a, ha⟩ := Option.isSome_iff_exists.mp hsince
    have hwatching := h.watching
    rw [ha] at hwatching
    rw [calls_timeout]
    simp only [Downlink.timeout, ha]
    exact hwatching.onTimeoutTimer hclock

variable [HostAddress Address]

theorem deliver_client (m : PingMessage) (arrival : ℤ) (rest : List (PingMessage × ℤ))
    (u : Downlink Address) :
    (u.deliver m arrival rest).client = (u.client.receivedPing arrival m).1 ∧
      (u.deliver m arrival rest).client.uniqueId = u.client.uniqueId ∧
      (u.deliver m arrival rest).calls =
        u.calls ++ Effect.calls u.client.uniqueId (u.client.receivedPing arrival m).2 := by
  have hreceived : u.client.receivedMessage arrival u.client.serverHostAddress
      u.client.serverPort (.ping m) = u.client.receivedPing arrival m :=
    Client.receivedMessage_ping (HostAddress.isEqual_self _) rfl
  have hid : (u.client.receivedPing arrival m).1.uniqueId = u.client.uniqueId := by
    simp only [Client.receivedPing]
    split <;> rfl
  simp [Downlink.deliver, Downlink.calls, hreceived, hid]

theorem fates_deliver (m : PingMessage) (arrival : ℤ) (rest : List (PingMessage × ℤ))
    (u : Downlink Address) : (u.deliver m arrival rest).fates = u.fates := by
  obtain ⟨-, hid, -⟩ := deliver_client m arrival rest u
  rw [Downlink.fates, hid]
  rfl

/-- The ping that is delivered has a number, and the results up to it are the fates. -/
theorem Inv.deliver (h : Inv k outcome outcome' c u) (hk : 0 < k)
    (hflight : u.inFlight = (m, arrival) :: rest) (hclock : u.clock ≤ arrival) :
    u.Lossless m arrival rest ∧
      ∃ outcome'', Inv k outcome'' outcome' c (u.deliver m arrival rest) := by
  have hpaced := h.paced
  rw [hflight, List.map_cons] at hpaced
  obtain ⟨n, hcounter, hwrap, hdue, hrest⟩ := hpaced.uncons
  obtain ⟨hnot, hall, hwatching⟩ := h.watching.receivedPing hk hcounter hdue hclock hwrap
  obtain ⟨hclient, hid, hcalls⟩ := deliver_client m arrival rest u
  have hpre : outcome ++ List.replicate n false ++ [true] <+: u.fates := by
    rw [h.fates]
    exact hrest.outcome_le.trans (List.prefix_append _ _)
  have hlength := hpre.length_le
  simp only [List.length_append, List.length_replicate, List.length_singleton] at hlength
  have htake : u.fates.take (outcome.length + n + 1) =
      outcome ++ List.replicate n false ++ [true] := by
    rw [List.prefix_iff_eq_take.mp hpre]
    simp [Nat.add_assoc]
  have hfates := fates_deliver m arrival rest u
  rw [← hcalls] at hall hwatching
  constructor
  · exact ⟨hnot, outcome.length + n, hcounter, by omega, hall.trans htake.symm⟩
  · refine ⟨_, ?_, h.ticking, ?_, ?_, hrest, ?_⟩
    · rw [Downlink.record, hid]
      exact h.record
    · rw [hfates]
      exact h.messageCounter
    · rw [hfates]
      exact h.fates
    · rw [hclient]
      exact hwatching

/-- In every run whose firings are in time, the sender and the receiver keep to the same
numbers. -/
theorem Inv.of_run (hin : ∀ u now, Admits u now → u.InTime delay now) (hk : 0 < k)
    (h : Inv k outcome outcome' c u) (hrun : ReflTransGen (Step Admits delay) u v) :
    ∃ outcome outcome' c, Inv k outcome outcome' c v := by
  induction hrun with
  | refl => exact ⟨outcome, outcome', c, h⟩
  | tail _ hstep ih =>
    obtain ⟨outcome, outcome', c, hinv⟩ := ih
    cases hstep with
    | fire now hfiring hadmits => exact ⟨outcome, hinv.fire (hin _ now hadmits)⟩
    | timeout now hclock hsince => exact ⟨outcome, outcome', c, hinv.timeout hclock hsince⟩
    | deliver hflight hclock =>
      obtain ⟨_, outcome'', hinv'⟩ := hinv.deliver hk hflight hclock
      exact ⟨outcome'', outcome', c, hinv'⟩

end Downlink

end PacketLossUtils
