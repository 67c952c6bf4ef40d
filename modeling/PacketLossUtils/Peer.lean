import PacketLossUtils.ClientLifecycle
import PacketLossUtils.Session

/-! The client as it is meant to be: counts that do not wrap, every result it ever had, and the
pings of a firing at once. -/
namespace PacketLossUtils

open NetworkCore PingStats Trace

variable {Address : Type}

/-- The client of one server. Its timers run while it is connected, and its interval is not zero. -/
structure Peer (Address : Type) where
  serverHostAddress : Address
  serverPort : UInt16
  uniqueId : UInt64
  interval : UInt32
  interval_pos : 0 < interval
  connected : Bool
  /-- Pings that were built, over all connections. -/
  pings : ℕ
  /-- Pings that were written. -/
  written : ℕ
  /-- Oldest first. -/
  results : List Bool
  timeOfLastMessageFromOther : ℤ
  otherStats : PingStats
  nextPingTime : ℤ
  doPingStatDebug : Bool

namespace Peer

variable {x : Peer Address}

def new (address : Address) (port : UInt16) (interval : UInt32) (interval_pos : 0 < interval)
    (uniqueId : UInt64) : Peer Address where
  serverHostAddress := address
  serverPort := port
  uniqueId := uniqueId
  interval := interval
  interval_pos := interval_pos
  connected := false
  pings := 0
  written := 0
  results := []
  timeOfLastMessageFromOther := -1
  otherStats := .initialized
  nextPingTime := 0
  doPingStatDebug := false

def write (x : Peer Address) (message : Message) : Effect Address :=
  .writeDatagram message x.serverHostAddress x.serverPort

def quit (x : Peer Address) : List (Effect Address) :=
  if x.connected then [x.write (.close ⟨x.uniqueId, CloseMessage.reasonQuit⟩)] else []

def connect (pending : ℕ → Option ℕ) (now now' : ℤ) (x : Peer Address) :
    Peer Address × List (Effect Address) :=
  if x.connected then (x, [])
  else
    (if ∃ i ∈ List.range 10, 0 < (pending i).getD 0 then
      { x with
        connected := true
        timeOfLastMessageFromOther := now
        nextPingTime := now' + x.interval.toNat }
    else x, [x.write (.welcome (.new x.uniqueId x.interval))])

/-- The next `n` pings. -/
def next (n : ℕ) (x : Peer Address) : List PingMessage :=
  (List.range' x.pings n).map fun i => ⟨x.uniqueId, UInt64.ofNat i, x.otherStats⟩

/-- How many of them a firing makes up for. -/
def due (now : ℤ) (x : Peer Address) : ℕ :=
  (now - x.nextPingTime).natAbs / x.interval.toNat + 1

def skip (now : ℤ) (n : ℕ) (x : Peer Address) : Peer Address × List (Effect Address) :=
  ({ x with
      pings := x.pings + n
      nextPingTime := now + x.interval.toNat }, (x.next n).map .skipPing)

def send (now : ℤ) (n : ℕ) (x : Peer Address) : Peer Address × List (Effect Address) :=
  ({ x with
      pings := x.pings + n
      written := x.written + n
      nextPingTime := now + x.interval.toNat },
    (x.next n).flatMap fun m => [x.write (.ping m), .pingStats x.uniqueId .addPacketSent])

/-- All of them are written, unless the timer is late. -/
def fire (now : ℤ) (x : Peer Address) : Peer Address × List (Effect Address) :=
  if now > x.nextPingTime + maxTimeLateMs then x.skip now (x.due now)
  else x.send now (x.due now)

def lose (now : ℤ) (x : Peer Address) : Peer Address × List (Effect Address) :=
  if now > x.timeOfLastMessageFromOther + x.interval.toNat + maxTimeLateMs then
    ({ x with
        results := x.results ++ [false]
        timeOfLastMessageFromOther := x.timeOfLastMessageFromOther + x.interval.toNat },
      [.pingStats x.uniqueId (.addResult false)])
  else (x, [])

def hear (now : ℤ) (m : PingMessage) (x : Peer Address) : Peer Address × List (Effect Address) :=
  let heard := { x with timeOfLastMessageFromOther := now }
  if expected x.results > m.counter then (heard, [])
  else
    ({ heard with
        results := x.results ++ news m.counter x.results
        otherStats := m.pingStats },
      (recording (news m.counter x.results)).map (.pingStats x.uniqueId))

/-! ### The client of a peer -/

/-- What the client keeps of it. -/
def client (x : Peer Address) : Client Address where
  serverHostAddress := x.serverHostAddress
  serverPort := x.serverPort
  uniqueId := x.uniqueId
  interval := x.interval
  isConnected := x.connected
  messageCounter := UInt64.ofNat x.pings
  messageCounterOtherNextExpected := expected x.results
  timeOfLastMessageFromOther := x.timeOfLastMessageFromOther
  otherStats := x.otherStats
  clientStats := ofResults x.written x.results
  nextPingTime := x.nextPingTime
  doPingStatDebug := x.doPingStatDebug
  timerPingActive := x.connected
  timerTimeoutActive := x.connected
  timerStatsActive := x.connected

theorem client_connect (pending : ℕ → Option ℕ) (now now' : ℤ) (x : Peer Address) :
    (x.client.connect pending now now').1 =
      ((x.connect pending now now').1.client, (x.connect pending now now').2) := by
  have hsame : x.client.isConnected = x.connected := rfl
  cases hconnected : x.connected with
  | true => simp [Client.connect, connect, hsame, hconnected]
  | false =>
    by_cases hreply : ∃ i ∈ List.range 10, 0 < (pending i).getD 0
    · have hany : (List.range 10).any (fun i => decide ((pending i).getD 0 > 0)) = true := by
        simpa using hreply
      simp only [Client.connect, connect, hsame, hconnected, if_pos hreply, hany]
      rfl
    · have hany : (List.range 10).any (fun i => decide ((pending i).getD 0 > 0)) = false := by
        simpa using hreply
      simp only [Client.connect, connect, hsame, hconnected, if_neg hreply, hany]
      rfl

theorem client_skip (now : ℤ) (x : Peer Address) :
    x.client.pingRound now true = ((x.skip now 1).1.client, (x.skip now 1).2) := by
  simp [Client.pingRound, skip, next, client, UInt64.ofNat_add, expected, ofResults]

theorem client_send (now : ℤ) (x : Peer Address) :
    x.client.pingRound now false = ((x.send now 1).1.client, (x.send now 1).2) := by
  have hstats : ofResults (x.send now 1).1.written (x.send now 1).1.results =
      (ofResults x.written x.results).addPacketSent := ofResults_succ x.written x.results
  have hclient : (x.send now 1).1.client = { x.client with
      messageCounter := x.client.messageCounter + 1
      nextPingTime := now + x.client.interval.toNat
      clientStats := x.client.clientStats.addPacketSent } := by
    rw [client, hstats]
    simp [send, client, expected, UInt64.ofNat_add]
  rw [hclient]
  rfl

theorem skip_succ (now : ℤ) (n : ℕ) (x : Peer Address) : x.skip now (n + 1) =
    (((x.skip now 1).1.skip now n).1, (x.skip now 1).2 ++ ((x.skip now 1).1.skip now n).2) := by
  simp [skip, next, List.range'_succ, Nat.add_assoc, Nat.add_comm 1 n]

theorem send_succ (now : ℤ) (n : ℕ) (x : Peer Address) : x.send now (n + 1) =
    (((x.send now 1).1.send now n).1, (x.send now 1).2 ++ ((x.send now 1).1.send now n).2) := by
  simp [send, next, write, List.range'_succ, Nat.add_assoc, Nat.add_comm 1 n]

/-- The rounds of a firing build the pings one after the other. -/
theorem client_fire (now : ℤ) (x : Peer Address) :
    x.client.onPingTimer now = ((x.fire now).1.client, (x.fire now).2) := by
  have hrounds : List.range (Client.numPingsMissed now x.client.nextPingTime x.client.interval) =
      0 :: (List.range (x.due now - 1)).map Nat.succ := List.range_succ_eq_map
  have hlength : ((List.range (x.due now - 1)).map Nat.succ).length + 1 = x.due now := by
    simp [due]
  rw [Client.onPingTimer, hrounds, fire]
  split
  · rename_i hlate
    have hskip : Client.skipMessage now x.client.nextPingTime = true := decide_eq_true hlate
    rw [hskip, run_at_once (fun _ => client_skip now) (skip_succ now), hlength]
  · rename_i hlate
    have hskip : Client.skipMessage now x.client.nextPingTime = false := decide_eq_false hlate
    rw [hskip, run_at_once (fun _ => client_send now) (send_succ now), hlength]

/-- Results are added to the client as the calls on its reception add them. -/
theorem client_results (l : List Bool) (x : Peer Address) :
    ({ x with results := x.results ++ l } : Peer Address).client =
      x.client.setReception (x.client.reception.after (recording l)) := by
  have hafter : x.client.reception.after (recording l) = _ :=
    Reception.after_recording x.written x.results l
  rw [hafter]
  rfl

theorem client_lose (now : ℤ) (x : Peer Address) :
    x.client.onTimeoutTimer now = ((x.lose now).1.client, (x.lose now).2) := by
  have hlost : x.client.setReception x.client.reception.markLost.1 =
      ({ x with results := x.results ++ [false] } : Peer Address).client :=
    (client_results [false] x).symm
  by_cases hover : now > x.timeOfLastMessageFromOther + x.interval.toNat + maxTimeLateMs
  · have hif : now > x.client.timeOfLastMessageFromOther + x.client.interval.toNat +
        maxTimeLateMs := hover
    rw [Client.onTimeoutTimer, if_pos hif, lose, if_pos hover, hlost]
    rfl
  · have hif : ¬ now > x.client.timeOfLastMessageFromOther + x.client.interval.toNat +
        maxTimeLateMs := hover
    rw [Client.onTimeoutTimer, if_neg hif, lose, if_neg hover]

theorem client_hear (now : ℤ) (m : PingMessage) (x : Peer Address) :
    x.client.receivedPing now m = ((x.hear now m).1.client, (x.hear now m).2) := by
  by_cases hseen : expected x.results > m.counter
  · have hif : x.client.messageCounterOtherNextExpected > m.counter := hseen
    rw [Client.receivedPing, if_pos hif, hear, if_pos hseen]
    rfl
  · have hif : ¬ x.client.messageCounterOtherNextExpected > m.counter := hseen
    have hcalls : (x.client.reception.markSeen m.counter).2 =
        recording (news m.counter x.results) :=
      Reception.markSeen_recording m.counter _ x.results
    have hreceived : x.client.setReception (x.client.reception.markSeen m.counter).1 =
        ({ x with results := x.results ++ news m.counter x.results } : Peer Address).client := by
      rw [Reception.markSeen_after, hcalls, client_results]
    rw [Client.receivedPing, if_neg hif, hear, if_neg hseen, hcalls, hreceived]
    rfl

theorem client_quit (x : Peer Address) : x.client.destruct = x.quit := rfl

theorem client_sigInt (x : Peer Address) : x.client.onSigIntReceived =
    (({ x with connected := false } : Peer Address).client, x.quit) := by
  have hsame : x.client.isConnected = x.connected := rfl
  cases hconnected : x.connected with
  | true =>
    rw [Client.onSigIntReceived, ← client_quit, Client.destruct, hsame, hconnected]
    rfl
  | false =>
    have hstill : ({ x with connected := false } : Peer Address) = x := by rw [← hconnected]
    rw [Client.onSigIntReceived, ← client_quit, Client.destruct, hsame, hconnected, hstill]
    rfl

/-! ### Steps -/

variable [HostAddress Address]

/-- What comes from elsewhere than the server is ignored, and so are a Close of another id and every
Welcome. -/
def step (e : Client.Event Address) (x : Peer Address) : Peer Address × List (Effect Address) :=
  match e with
  | .connect pending now now' => x.connect pending now now'
  | .pingTimer now => x.fire now
  | .timeoutTimer now => x.lose now
  | .sigInt => ({ x with connected := false }, x.quit)
  | .message now address port m =>
    if HostAddress.isEqual address x.serverHostAddress ∧ port = x.serverPort then
      match m with
      | .ping m => x.hear now m
      | .close m => if m.uniqueId = x.uniqueId then ({ x with connected := false }, []) else (x, [])
      | .welcome _ => (x, [])
    else (x, [])

theorem client_message (now : ℤ) (address : Address) (port : UInt16) (m : Message)
    (x : Peer Address) : x.client.receivedMessage now address port m =
      ((x.step (.message now address port m)).1.client,
        (x.step (.message now address port m)).2) := by
  have hserver : (!HostAddress.isEqual address x.client.serverHostAddress ||
      port != x.client.serverPort) = true ↔
        ¬ (HostAddress.isEqual address x.serverHostAddress ∧ port = x.serverPort) := by
    simp [client, imp_iff_not_or]
  by_cases hfrom : HostAddress.isEqual address x.serverHostAddress ∧ port = x.serverPort
  · rw [Client.receivedMessage.eq_def, if_neg (hserver.not_left.mpr hfrom)]
    simp only [step, if_pos hfrom]
    cases m with
    | ping m => exact client_hear now m x
    | close m =>
      by_cases hid : m.uniqueId = x.uniqueId
      · simp only [if_pos hid]
        exact if_neg (not_not.mpr hid)
      · simp only [if_neg hid]
        exact if_pos hid
    | welcome m => rfl
  · rw [Client.receivedMessage.eq_def, if_pos (hserver.mpr hfrom)]
    simp only [step, if_neg hfrom]

/-- The client does what the peer does. -/
theorem client_step (e : Client.Event Address) (x : Peer Address) :
    x.client.step e = ((x.step e).1.client, (x.step e).2) := by
  cases e with
  | connect pending now now' => exact client_connect pending now now' x
  | pingTimer now => exact client_fire now x
  | timeoutTimer now => exact client_lose now x
  | sigInt => exact client_sigInt x
  | message now address port m => exact client_message now address port m x

end Peer

/-- In every run the client is that of a peer, and writes and records what the peer does, from the
constructor to the destructor. -/
theorem Client.peer_run [HostAddress Address] (address : Address) (port : UInt16)
    {interval : UInt32} (hinterval : 0 < interval) (uniqueId : UInt64)
    (events : List (Event Address)) :
    let c := run step events (.new address port interval uniqueId)
    let x := run Peer.step events (.new address port interval hinterval uniqueId)
    c = (x.1.client, x.2) ∧ c.1.destruct = x.1.quit := by
  intro c x
  have hrun : c = (x.1.client, x.2) :=
    run_commute Peer.client_step events (.new address port interval hinterval uniqueId)
  rw [hrun]
  exact ⟨rfl, Peer.client_quit x.1⟩

/-- A client that fires late, hears a ping of the server, and is interrupted. -/
theorem Client.peer_run_interrupted :
    let events : List (Event ℕ) := [.connect (fun _ => some 5) 0 0, .pingTimer 900,
      .message 950 1 9 (.ping ⟨7, 2, .initialized⟩), .sigInt]
    let c := run step events (.new 1 9 250 7)
    let x := run Peer.step events (.new 1 9 250 (by decide) 7)
    c = (x.1.client, x.2) ∧ c.1.destruct = x.1.quit :=
  peer_run 1 9 (by decide) 7 _

end PacketLossUtils
