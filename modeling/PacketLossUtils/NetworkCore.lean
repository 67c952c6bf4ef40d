import PacketLossUtils.Lib.Trace
import PacketLossUtils.Message

/-! What client and server share: their effects, the receiving side, and the datagram loop. -/
namespace PacketLossUtils

/-- What a handler does besides changing its own state, in program order: datagrams written,
pings that were built but skipped, and calls on the statistics kept for a peer. -/
inductive Effect (Address : Type)
  | writeDatagram (message : Message) (address : Address) (port : UInt16)
  | skipPing (message : PingMessage)
  | pingStats (uniqueId : UInt64) (call : PingStats.Call)

/-- The receiving side of a `ClientInfo` or of the client. -/
structure Reception where
  messageCounterOtherNextExpected : UInt64
  pingStats : PingStats
  deriving DecidableEq

namespace Reception

/-- `addResult(false)` and `++messageCounterOtherNextExpected`. -/
def markLost (r : Reception) : Reception × List PingStats.Call :=
  (⟨r.messageCounterOtherNextExpected + 1, r.pingStats.addResult false⟩, [.addResult false])

/-- The loop over the messages a ping shows to be missing. -/
def markMissing (counter : UInt64) (r : Reception) : Reception × List PingStats.Call :=
  if r.messageCounterOtherNextExpected < counter then
    let rest := markMissing counter r.markLost.1
    (rest.1, r.markLost.2 ++ rest.2)
  else (r, [])
termination_by counter.toNat - r.messageCounterOtherNextExpected.toNat
decreasing_by
  rename_i h
  have hlt := UInt64.lt_iff_toNat_lt.mp h
  have hc := counter.toNat_lt
  simp only [markLost, UInt64.toNat_add, UInt64.reduceToNat]
  omega

/-- A ping that is not below the expected counter. -/
def markSeen (counter : UInt64) (r : Reception) : Reception × List PingStats.Call :=
  let missing := markMissing counter r
  (⟨missing.1.messageCounterOtherNextExpected + 1,
      (missing.1.pingStats.addResult true).addPacketReceived⟩,
    missing.2 ++ [.addResult true, .addPacketReceived])

end Reception

/-! ### The datagram loop -/

/-- `QNetworkDatagram`. -/
structure Datagram (Address : Type) where
  data : QByteArray
  senderAddress : Address
  senderPort : UInt16

namespace NetworkCore

variable {Address σ τ ε : Type}

/-- Where `readPendingDatagrams` stops: the state, the effects so far, the datagrams still
pending, and the exception it leaves by. -/
structure Drained (Address σ τ ε : Type) where
  state : σ
  effects : List ε
  pending : List (Datagram Address × τ)
  thrown : Option ProtocolErrorException

/-- Each pending datagram comes with the clock readings taken while it is handled. -/
def readPendingDatagrams (qt : QtText)
    (receivedMessage : τ → Address → UInt16 → Message → σ → σ × List ε) :
    List (Datagram Address × τ) → σ → Drained Address σ τ ε
  | [], s => ⟨s, [], [], none⟩
  | (datagram, readings) :: pending, s =>
    if datagram.data.length = 0 then readPendingDatagrams qt receivedMessage pending s
    else
      match parseIncomingMessage qt datagram.data with
      | .error e => ⟨s, [], pending, some e⟩
      | .ok none => readPendingDatagrams qt receivedMessage pending s
      | .ok (some message) =>
        let handled :=
          receivedMessage readings datagram.senderAddress datagram.senderPort message s
        let rest := readPendingDatagrams qt receivedMessage pending handled.1
        { rest with effects := handled.2 ++ rest.effects }

end NetworkCore

end PacketLossUtils
