import PacketLossUtils.NetworkCore

/-! The client: one server, one timer for its pings and one for the server's silence. -/
namespace PacketLossUtils

/-- `QHostAddress`. `isEqual` may identify addresses of different notation. -/
class HostAddress (Address : Type) where
  isEqual : Address → Address → Bool
  isEqual_self : ∀ address, isEqual address address = true

/-- Addresses of one notation, as numbers. -/
instance : HostAddress ℕ where
  isEqual := (· == ·)
  isEqual_self := beq_self_eq_true

variable {Address : Type}

structure Client (Address : Type) where
  serverHostAddress : Address
  serverPort : UInt16
  uniqueId : UInt64
  interval : UInt32
  isConnected : Bool
  messageCounter : UInt64
  messageCounterOtherNextExpected : UInt64
  timeOfLastMessageFromOther : ℤ
  otherStats : PingStats
  clientStats : PingStats
  nextPingTime : ℤ
  doPingStatDebug : Bool
  timerPingActive : Bool
  timerTimeoutActive : Bool
  timerStatsActive : Bool

namespace Client

open NetworkCore

/-- The constructor; `uniqueId` is what the random generator returns. -/
def new (address : Address) (port : UInt16) (interval : UInt32) (uniqueId : UInt64) :
    Client Address where
  serverHostAddress := address
  serverPort := port
  uniqueId := uniqueId
  interval := interval
  isConnected := false
  messageCounter := 0
  messageCounterOtherNextExpected := 0
  timeOfLastMessageFromOther := -1
  otherStats := .initialized
  clientStats := .initialized
  nextPingTime := 0
  doPingStatDebug := false
  timerPingActive := false
  timerTimeoutActive := false
  timerStatsActive := false

def setDebugPingStats (doDebug : Bool) (c : Client Address) : Client Address :=
  { c with doPingStatDebug := doDebug }

def reception (c : Client Address) : Reception :=
  ⟨c.messageCounterOtherNextExpected, c.clientStats⟩

def setReception (c : Client Address) (r : Reception) : Client Address :=
  { c with
    messageCounterOtherNextExpected := r.messageCounterOtherNextExpected
    clientStats := r.pingStats }

/-- A datagram to the server. -/
def write (c : Client Address) (message : Message) : Effect Address :=
  .writeDatagram message c.serverHostAddress c.serverPort

/-- `pending i` is the size of the first pending datagram at poll number `i`, if there is
one; `now` and `now'` are the clock readings after a reply. The last component is the
value returned. -/
def connect (pending : ℕ → Option ℕ) (now now' : ℤ) (c : Client Address) :
    (Client Address × List (Effect Address)) × Bool :=
  if c.isConnected then ((c, []), false)
  else
    let written := [c.write (.welcome (.new c.uniqueId c.interval))]
    let receivedReply := (List.range 10).any fun i => decide ((pending i).getD 0 > 0)
    if !receivedReply then ((c, written), false)
    else
      (({ c with
          timeOfLastMessageFromOther := now
          timerPingActive := true
          nextPingTime := now' + c.interval.toNat
          timerTimeoutActive := true
          timerStatsActive := true
          isConnected := true }, written), true)

def skipMessage (now nextPingTime : ℤ) : Bool := decide (now > nextPingTime + maxTimeLateMs)

def numPingsMissed (now nextPingTime : ℤ) (interval : UInt32) : ℕ :=
  (now - nextPingTime).natAbs / interval.toNat + 1

/-- One ping, written or skipped. -/
def pingRound (now : ℤ) (skipMessage : Bool) (c : Client Address) :
    Client Address × List (Effect Address) :=
  let pingMessage : PingMessage := ⟨c.uniqueId, c.messageCounter, c.otherStats⟩
  let c := { c with
    messageCounter := c.messageCounter + 1
    nextPingTime := now + c.interval.toNat }
  if !skipMessage then
    ({ c with clientStats := c.clientStats.addPacketSent },
      [c.write (.ping pingMessage), .pingStats c.uniqueId .addPacketSent])
  else (c, [.skipPing pingMessage])

/-- The source divides by the interval, which no caller sets to zero. -/
def onPingTimer (now : ℤ) (c : Client Address) : Client Address × List (Effect Address) :=
  Trace.run (fun (_ : ℕ) => pingRound now (skipMessage now c.nextPingTime))
    (List.range (numPingsMissed now c.nextPingTime c.interval)) c

def onTimeoutTimer (now : ℤ) (c : Client Address) : Client Address × List (Effect Address) :=
  if now > c.timeOfLastMessageFromOther + c.interval.toNat + maxTimeLateMs then
    ({ c.setReception c.reception.markLost.1 with
        timeOfLastMessageFromOther := c.timeOfLastMessageFromOther + c.interval.toNat },
      c.reception.markLost.2.map (.pingStats c.uniqueId))
  else (c, [])

/-- The windows of the report: 10 s, 1 min and 5 min, in intervals. -/
def statsWindows (c : Client Address) : List ℤ :=
  [10 * 1000, 60 * 1000, 5 * 60 * 1000].map fun (ms : ℕ) => ((ms / c.interval.toNat : ℕ) : ℤ)

/-- The incoming and the outgoing rates, and the statistics in full when debugging. -/
def onStatsTimer (c : Client Address) : List ℚ × List ℚ × Option (QString × QByteArray) :=
  (c.statsWindows.map c.clientStats.getPercentReceivedOverTime,
    c.statsWindows.map c.otherStats.getPercentReceivedOverTime,
    if c.doPingStatDebug then some (c.otherStats.toString, c.otherStats.toDataStream) else none)

def stopTimers (c : Client Address) : Client Address :=
  { c with timerPingActive := false, timerTimeoutActive := false, timerStatsActive := false }

def onSigIntReceived (c : Client Address) : Client Address × List (Effect Address) :=
  if c.isConnected then
    ({ c with isConnected := false }.stopTimers,
      [c.write (.close ⟨c.uniqueId, CloseMessage.reasonQuit⟩)])
  else (c, [])

/-- `~Client`. -/
def destruct (c : Client Address) : List (Effect Address) :=
  if c.isConnected then [c.write (.close ⟨c.uniqueId, CloseMessage.reasonQuit⟩)] else []

/-- A ping from the server; its unique id is not looked at. -/
def receivedPing (now : ℤ) (pingMessage : PingMessage) (c : Client Address) :
    Client Address × List (Effect Address) :=
  if c.messageCounterOtherNextExpected > pingMessage.counter then
    ({ c with timeOfLastMessageFromOther := now }, [])
  else
    ({ c.setReception (c.reception.markSeen pingMessage.counter).1 with
        otherStats := pingMessage.pingStats
        timeOfLastMessageFromOther := now },
      (c.reception.markSeen pingMessage.counter).2.map (.pingStats c.uniqueId))

variable [HostAddress Address]

def receivedMessage (now : ℤ) (address : Address) (port : UInt16) (message : Message)
    (c : Client Address) : Client Address × List (Effect Address) :=
  if !HostAddress.isEqual address c.serverHostAddress || port != c.serverPort then (c, [])
  else
    match message with
    | .ping pingMessage => c.receivedPing now pingMessage
    | .close closeMessage =>
      if closeMessage.uniqueId ≠ c.uniqueId then (c, [])
      else ({ c with isConnected := false }.stopTimers, [])
    | .welcome _ => (c, [])

/-- What can happen to the client. -/
inductive Event (Address : Type)
  | connect (pending : ℕ → Option ℕ) (now now' : ℤ)
  | pingTimer (now : ℤ)
  | timeoutTimer (now : ℤ)
  | sigInt
  | message (now : ℤ) (address : Address) (port : UInt16) (message : Message)

def step (e : Event Address) (c : Client Address) : Client Address × List (Effect Address) :=
  match e with
  | .connect pending now now' => (c.connect pending now now').1
  | .pingTimer now => c.onPingTimer now
  | .timeoutTimer now => c.onTimeoutTimer now
  | .sigInt => c.onSigIntReceived
  | .message now address port message => c.receivedMessage now address port message

end Client

end PacketLossUtils
