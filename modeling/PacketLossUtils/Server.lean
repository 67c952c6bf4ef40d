import PacketLossUtils.NetworkCore

/-! The server: one record per client, one base timer that drives all pings. -/
namespace PacketLossUtils

variable {Address : Type}

/-- `Server::ClientInfo`. -/
structure ClientInfo (Address : Type) where
  address : Address
  port : UInt16
  messageCounter : UInt64
  messageCounterOtherNextExpected : UInt64
  interval : UInt32
  intervalCounter : UInt32
  timeOfLastMessageFromOther : ℤ
  timeOfLastRealMessageFromOther : ℤ
  pingStats : PingStats

structure Server (Address : Type) where
  clientInfos : Std.ExtTreeMap UInt64 (ClientInfo Address)
  nextPingTime : ℤ
  timerPingActive : Bool
  timerTimeoutActive : Bool

namespace Server

open NetworkCore

def baseTimerInterval : UInt32 := 250
def clientTimeoutMs : ℤ := 60 * 1000

def new : Server Address where
  clientInfos := ∅
  nextPingTime := 0
  timerPingActive := false
  timerTimeoutActive := false

end Server

namespace ClientInfo

open NetworkCore Server

/-- The constructor; `now` is the clock reading it takes. -/
def new (address : Address) (port : UInt16) (interval : UInt32) (now : ℤ) :
    ClientInfo Address where
  address := address
  port := port
  messageCounter := 0
  messageCounterOtherNextExpected := 0
  interval := interval
  intervalCounter := 0
  timeOfLastMessageFromOther := -1
  timeOfLastRealMessageFromOther := now
  pingStats := .initialized

def reception (c : ClientInfo Address) : Reception :=
  ⟨c.messageCounterOtherNextExpected, c.pingStats⟩

def setReception (c : ClientInfo Address) (r : Reception) : ClientInfo Address :=
  { c with
    messageCounterOtherNextExpected := r.messageCounterOtherNextExpected
    pingStats := r.pingStats }

/-- One base tick for one client. -/
def pingTick (skipMessage : Bool) (uniqueId : UInt64) (c : ClientInfo Address) :
    ClientInfo Address × List (Effect Address) :=
  let c := { c with intervalCounter := c.intervalCounter + 1 }
  if c.intervalCounter * baseTimerInterval ≥ c.interval then
    let pingMessage : PingMessage := ⟨uniqueId, c.messageCounter, c.pingStats⟩
    let c := { c with messageCounter := c.messageCounter + 1, intervalCounter := 0 }
    if !skipMessage then
      ({ c with pingStats := c.pingStats.addPacketSent },
        [.writeDatagram (.ping pingMessage) c.address c.port,
          .pingStats uniqueId .addPacketSent])
    else (c, [.skipPing pingMessage])
  else (c, [])

/-- The client has been silent for longer than its interval allows. -/
def Overdue (now : ℤ) (c : ClientInfo Address) : Prop :=
  c.timeOfLastMessageFromOther ≠ -1 ∧
    now > c.timeOfLastMessageFromOther + c.interval.toNat + maxTimeLateMs

instance (now : ℤ) (c : ClientInfo Address) : Decidable (Overdue now c) :=
  inferInstanceAs (Decidable (_ ∧ _))

/-- The first half of the body of the timeout loop. -/
def timeoutTick (now : ℤ) (uniqueId : UInt64) (c : ClientInfo Address) :
    ClientInfo Address × List (Effect Address) :=
  if Overdue now c then
    ({ c.setReception c.reception.markLost.1 with
        timeOfLastMessageFromOther := c.timeOfLastMessageFromOther + c.interval.toNat },
      c.reception.markLost.2.map (.pingStats uniqueId))
  else (c, [])

/-- The client has been silent for so long that it is assumed dead. -/
def Dead (now : ℤ) (c : ClientInfo Address) : Prop :=
  now - c.timeOfLastRealMessageFromOther ≥ clientTimeoutMs

instance (now : ℤ) (c : ClientInfo Address) : Decidable (Dead now c) :=
  inferInstanceAs (Decidable (_ ≥ _))

/-- A ping of a known client; `now` and `now'` are the two clock readings. -/
def receivedPing (now now' : ℤ) (uniqueId counter : UInt64) (c : ClientInfo Address) :
    ClientInfo Address × List (Effect Address) :=
  if c.messageCounterOtherNextExpected > counter then
    ({ c with timeOfLastMessageFromOther := now, timeOfLastRealMessageFromOther := now' }, [])
  else
    ({ c.setReception (c.reception.markSeen counter).1 with
        timeOfLastMessageFromOther := now, timeOfLastRealMessageFromOther := now' },
      (c.reception.markSeen counter).2.map (.pingStats uniqueId))

end ClientInfo

namespace Server

open NetworkCore

/-- `now` is read only when the timers start. -/
def startOrStopTimersIfNeeded (now : ℤ) (s : Server Address) : Server Address :=
  if s.clientInfos.size > 0 then
    if !s.timerPingActive then
      { s with
        timerPingActive := true
        nextPingTime := now + baseTimerInterval.toNat
        timerTimeoutActive := true }
    else s
  else { s with timerPingActive := false, timerTimeoutActive := false }

/-- One pass over the clients. -/
def pingRound (now : ℤ) (skipMessage : Bool) (s : Server Address) :
    Server Address × List (Effect Address) :=
  ({ s with
      clientInfos := s.clientInfos.map fun uniqueId c => (c.pingTick skipMessage uniqueId).1
      nextPingTime := now + baseTimerInterval.toNat },
    s.clientInfos.toList.flatMap fun e => (e.2.pingTick skipMessage e.1).2)

def skipMessage (now nextPingTime : ℤ) : Bool := decide (now > nextPingTime + maxTimeLateMs)

def numPingsMissed (now nextPingTime : ℤ) : ℕ :=
  (now - nextPingTime).natAbs / baseTimerInterval.toNat + 1

def onPingTimer (now : ℤ) (s : Server Address) : Server Address × List (Effect Address) :=
  Trace.run (fun (_ : ℕ) => pingRound now (skipMessage now s.nextPingTime))
    (List.range (numPingsMissed now s.nextPingTime)) s

/-- The loop of `onTimeoutTimer` over a copy of the map. A dead client is removed, the whole
sweep restarts, and the rest of this loop is abandoned. -/
def timeoutLoop (restart : Server Address → Server Address × List (Effect Address))
    (now nowStart : ℤ) : List (UInt64 × ClientInfo Address) → Server Address →
      Server Address × List (Effect Address)
  | [], s => (s, [])
  | (uniqueId, c) :: rest, s =>
    let ticked := c.timeoutTick now uniqueId
    let s := { s with clientInfos := s.clientInfos.insert uniqueId ticked.1 }
    if ticked.1.Dead now then
      let closeMessage : CloseMessage := ⟨uniqueId, CloseMessage.reasonTimeout⟩
      let s := { s with clientInfos := s.clientInfos.erase uniqueId }
      let restarted := restart s
      (startOrStopTimersIfNeeded nowStart restarted.1,
        ticked.2 ++ .writeDatagram (.close closeMessage) c.address c.port :: restarted.2)
    else
      let done := timeoutLoop restart now nowStart rest s
      (done.1, ticked.2 ++ done.2)

/-- `onTimeoutTimer` with a bound on the nested calls. Call number `i` reads the clock as
`now i`; the timers, should they start, read it as `nowStart`. -/
def timeoutSweep : ℕ → (ℕ → ℤ) → ℤ → Server Address → Server Address × List (Effect Address)
  | 0, _, _, s => (s, [])
  | depth + 1, now, nowStart, s =>
    timeoutLoop (timeoutSweep depth (fun i => now (i + 1)) nowStart) (now 0) nowStart
      s.clientInfos.toList s

/-- Every nested call has one client less to visit. -/
def onTimeoutTimer (now : ℕ → ℤ) (nowStart : ℤ) (s : Server Address) :
    Server Address × List (Effect Address) :=
  timeoutSweep (s.clientInfos.size + 1) now nowStart s

/-- A Close to every client, in the order of the map. -/
def closeClients (s : Server Address) : List (Effect Address) :=
  s.clientInfos.toList.map fun e =>
    .writeDatagram (.close ⟨e.1, CloseMessage.reasonQuit⟩) e.2.address e.2.port

/-- With no client left the clock is not read. -/
def onSigIntReceived (s : Server Address) : Server Address × List (Effect Address) :=
  (startOrStopTimersIfNeeded 0 { s with clientInfos := ∅ }, s.closeClients)

/-- `~Server`. -/
def destruct (s : Server Address) : List (Effect Address) := s.closeClients

/-- `now` and `now'` are the first and the second clock reading on the path taken. -/
def receivedMessage (now now' : ℤ) (address : Address) (port : UInt16) (message : Message)
    (s : Server Address) : Server Address × List (Effect Address) :=
  match message with
  | .ping pingMessage =>
    match s.clientInfos[pingMessage.uniqueId]? with
    | some c =>
      let received := c.receivedPing now now' pingMessage.uniqueId pingMessage.counter
      ({ s with clientInfos := s.clientInfos.insert pingMessage.uniqueId received.1 },
        received.2)
    | none =>
      (s, [.writeDatagram (.close ⟨pingMessage.uniqueId, CloseMessage.reasonUnsolicited⟩)
        address port])
  | .welcome welcomeMessage =>
    if welcomeMessage.uniqueId ∈ s.clientInfos then (s, [])
    else if welcomeMessage.pingIntervalInMs % baseTimerInterval ≠ 0 then (s, [])
    else
      (startOrStopTimersIfNeeded now'
          { s with
            clientInfos := s.clientInfos.insert welcomeMessage.uniqueId
              (.new address port welcomeMessage.pingIntervalInMs now) },
        [.writeDatagram (.welcome welcomeMessage) address port])
  | .close closeMessage =>
    if closeMessage.uniqueId ∉ s.clientInfos then (s, [])
    else ({ s with clientInfos := s.clientInfos.erase closeMessage.uniqueId }, [])

/-- What can happen to the server. -/
inductive Event (Address : Type)
  | pingTimer (now : ℤ)
  | timeoutTimer (now : ℕ → ℤ) (nowStart : ℤ)
  | sigInt
  | message (now now' : ℤ) (address : Address) (port : UInt16) (message : Message)

def step (e : Event Address) (s : Server Address) : Server Address × List (Effect Address) :=
  match e with
  | .pingTimer now => s.onPingTimer now
  | .timeoutTimer now nowStart => s.onTimeoutTimer now nowStart
  | .sigInt => s.onSigIntReceived
  | .message now now' address port message => s.receivedMessage now now' address port message

end Server

end PacketLossUtils
