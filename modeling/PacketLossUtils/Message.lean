import PacketLossUtils.Lib.BigEndian
import PacketLossUtils.PingStats

/-! The three messages, their encodings, and the dispatch on the message id. -/
namespace PacketLossUtils

/-- `QByteArray`, first byte first. -/
abbrev QByteArray := List UInt8

namespace QString

def toUtf8 (s : QString) : QByteArray := s.flatMap String.utf8EncodeChar

/-- The place markers `%1` to `%99` of a text, in order. -/
def placeMarkers : QString → List ℕ
  | '%' :: c :: d :: rest =>
    if c.isDigit then
      if d.isDigit then (10 * (c.toNat - 48) + (d.toNat - 48)) :: placeMarkers rest
      else (c.toNat - 48) :: placeMarkers (d :: rest)
    else placeMarkers (c :: d :: rest)
  | ['%', c] => if c.isDigit then [c.toNat - 48] else []
  | _ :: rest => placeMarkers rest
  | [] => []

/-- Put `a` in the place of every marker of number `n`. -/
def replaceMarker (n : ℕ) (a : QString) : QString → QString
  | '%' :: c :: d :: rest =>
    if c.isDigit then
      if d.isDigit then
        (if 10 * (c.toNat - 48) + (d.toNat - 48) = n then a else ['%', c, d]) ++
          replaceMarker n a rest
      else (if c.toNat - 48 = n then a else ['%', c]) ++ replaceMarker n a (d :: rest)
    else '%' :: replaceMarker n a (c :: d :: rest)
  | ['%', c] => if c.isDigit ∧ c.toNat - 48 = n then a else ['%', c]
  | c :: rest => c :: replaceMarker n a rest
  | [] => []

/-- `QString::arg`: the place marker of lowest number gives way to the argument. -/
def arg (s a : QString) : QString :=
  match (placeMarkers s).min? with
  | some n => replaceMarker n a s
  | none => s

end QString

/-- What the decoders use of Qt's text handling beyond what is defined here. Texts of
ASCII characters without U+0000, at which `fromUtf8` stops, and the decimal numerals of
`QString::arg` are read back as they were written; nothing is assumed about any other text or
numeral. A numeral that sets
`ok = false` is `none`. -/
structure QtText where
  fromUtf8 : QByteArray → QString
  toUInt : QString → Option UInt32
  toULongLong : QString → Option UInt64
  fromUtf8_toUtf8 : ∀ s : QString, (∀ c ∈ s, 0 < c.toNat ∧ c.toNat < 128) →
    fromUtf8 s.toUtf8 = s
  toUInt_number : ∀ n : UInt32, toUInt (QString.number n.toNat) = some n
  toULongLong_number : ∀ n : UInt64, toULongLong (QString.number n.toNat) = some n

/-- The text of a `ProtocolErrorException`, after the file and the line. -/
structure ProtocolErrorException where
  what : QString
  deriving DecidableEq

/-! ### `QDataStream` -/

namespace QDataStream

/-- Read a `k`-byte number. A short read uses up what is left and yields 0. -/
def readNumber (k : ℕ) (stream : QByteArray) : ℕ × QByteArray :=
  if stream.length < k then (0, []) else (BigEndian.decode (stream.take k), stream.drop k)

def readUInt64 (stream : QByteArray) : UInt64 × QByteArray :=
  ((readNumber 8 stream).1.toUInt64, (readNumber 8 stream).2)

/-- The signed value of a 32-bit pattern. -/
def toInt32 (n : ℕ) : ℤ := if n < 2 ^ 31 then n else n - 2 ^ 32

def readInt (stream : QByteArray) : ℤ × QByteArray :=
  (toInt32 (readNumber 4 stream).1, (readNumber 4 stream).2)

def writeInt (n : ℤ) : QByteArray := BigEndian.encode 4 (n % 2 ^ 32).toNat

def writeBitArray (bits : QBitArray) : QByteArray :=
  BigEndian.encode 4 bits.length ++ BigEndian.packBits bits

/-- A bit of the last byte above the announced length is set. -/
def paddingSet (length : ℕ) (bytes : QByteArray) : Prop :=
  length % 8 ≠ 0 ∧ (bytes.getLastD 0).toNat / 2 ^ (length % 8) ≠ 0

instance (length : ℕ) (bytes : QByteArray) : Decidable (paddingSet length bytes) :=
  inferInstanceAs (Decidable (_ ∧ _))

/-- Too few bytes or a set padding bit give an empty array; the status this sets on the
stream is read nowhere. -/
def readBitArray (stream : QByteArray) : QBitArray × QByteArray :=
  let length := readNumber 4 stream
  let totalBytes := (length.1 + 7) / 8
  if length.2.length < totalBytes then ([], [])
  else if paddingSet length.1 (length.2.take totalBytes) then ([], length.2.drop totalBytes)
  else (BigEndian.unpackBits length.1 (length.2.take totalBytes), length.2.drop totalBytes)

end QDataStream

namespace PingStats

open QDataStream

def fromDataStream (stream : QByteArray) : PingStats × QByteArray :=
  let bitArray := readBitArray stream
  let currentPosition := readInt bitArray.2
  let storedBitCount := readInt currentPosition.2
  let packetsSent := readUInt64 storedBitCount.2
  let packetsReceived := readUInt64 packetsSent.2
  (⟨bitArray.1, currentPosition.1, storedBitCount.1, packetsSent.1, packetsReceived.1⟩,
    packetsReceived.2)

/-- `operator<<`. -/
def toDataStream (t : PingStats) : QByteArray :=
  writeBitArray t.bitArray ++ writeInt t.currentPosition ++ writeInt t.storedBitCount ++
    BigEndian.encode 8 t.packetsSent.toNat ++ BigEndian.encode 8 t.packetsReceived.toNat

end PingStats

/-! ### The messages -/

structure WelcomeMessage where
  version : UInt32
  uniqueId : UInt64
  pingIntervalInMs : UInt32
  deriving DecidableEq

structure PingMessage where
  uniqueId : UInt64
  counter : UInt64
  pingStats : PingStats
  deriving DecidableEq

structure CloseMessage where
  uniqueId : UInt64
  reason : UInt32
  deriving DecidableEq

inductive Message
  | welcome (message : WelcomeMessage)
  | ping (message : PingMessage)
  | close (message : CloseMessage)
  deriving DecidableEq

namespace Message

def prependMessageId (data : QByteArray) (messageId : UInt32) : QByteArray :=
  BigEndian.encode 4 messageId.toNat ++ data

/-- The message without its id, the id, and the flag `ok`. -/
def extractMessageId (data : QByteArray) :
    Except ProtocolErrorException (QByteArray × UInt32 × Bool) :=
  if data.length < 4 then
    .error ⟨"Message had ".toList ++ QString.number data.length ++
      " Bytes, we expected at least ".toList ++ QString.number 4 ++ ".".toList⟩
  else .ok (data.drop 4, (BigEndian.decode (data.take 4)).toUInt32, true)

/-- The error text the text decoders share. -/
def couldNotParse (cause part message : QString) : ProtocolErrorException :=
  ⟨"Could not parse message from server, could not understand ".toList ++ cause ++ " '".toList ++
    part ++ "'. Message: '".toList ++ message ++ "'.".toList⟩

end Message

namespace WelcomeMessage

def messageId : UInt32 := 0x1
def protocolVersion : UInt32 := 0x1

/-- The public constructor. -/
def new (uniqueId : UInt64) (pingIntervalInMs : UInt32) : WelcomeMessage :=
  ⟨protocolVersion, uniqueId, pingIntervalInMs⟩

def toText (m : WelcomeMessage) : QString :=
  QString.arg (QString.arg (QString.arg
    "PACKAGELOSSUTILS\nVERSION\n%1\nID\n%2\nINTERVAL\n%3".toList
      (QString.number m.version.toNat))
      (QString.number m.uniqueId.toNat))
      (QString.number m.pingIntervalInMs.toNat)

def toData (m : WelcomeMessage) : QByteArray :=
  Message.prependMessageId m.toText.toUtf8 messageId

def fromData (qt : QtText) (data : QByteArray) :
    Except ProtocolErrorException WelcomeMessage :=
  let message := qt.fromUtf8 data
  let parts := message.splitOn '\n'
  if parts.length ≠ 7 then
    .error ⟨"Message from server had ".toList ++ QString.number parts.length ++
      " parts, we expected 5. Message: '".toList ++ message ++ "'.".toList⟩
  else if qt.toUInt (parts.getD 2 []) ≠ some protocolVersion then
    .error ⟨"Could not parse message from server, could not understand version '".toList ++
      parts.getD 2 [] ++ "', we expected ".toList ++ QString.number protocolVersion.toNat ++
      ". Message: '".toList ++ message ++ "'.".toList⟩
  else
    match qt.toULongLong (parts.getD 4 []) with
    | none => .error (Message.couldNotParse "uniqueID".toList (parts.getD 4 []) message)
    | some uniqueId =>
      match qt.toUInt (parts.getD 6 []) with
      | none => .error (Message.couldNotParse "ping interval".toList (parts.getD 6 []) message)
      | some pingIntervalInMs => .ok ⟨protocolVersion, uniqueId, pingIntervalInMs⟩

end WelcomeMessage

namespace CloseMessage

def messageId : UInt32 := 0x3
def reasonQuit : UInt32 := 0x1
def reasonTimeout : UInt32 := 0x2
def reasonUnsolicited : UInt32 := 0x3

def toText (m : CloseMessage) : QString :=
  QString.arg (QString.arg "%1\n%2".toList (QString.number m.uniqueId.toNat))
    (QString.number m.reason.toNat)

def toData (m : CloseMessage) : QByteArray :=
  Message.prependMessageId m.toText.toUtf8 messageId

def fromData (qt : QtText) (data : QByteArray) : Except ProtocolErrorException CloseMessage :=
  let message := qt.fromUtf8 data
  let parts := message.splitOn '\n'
  if parts.length ≠ 2 then
    .error ⟨"Close Message from server had ".toList ++ QString.number parts.length ++
      " parts, we expected 2. Message: '".toList ++ message ++ "'.".toList⟩
  else
    match qt.toULongLong (parts.getD 0 []) with
    | none => .error (Message.couldNotParse "uniqueID".toList (parts.getD 0 []) message)
    | some uniqueId =>
      match qt.toUInt (parts.getD 1 []) with
      | none => .error (Message.couldNotParse "reason".toList (parts.getD 1 []) message)
      | some reason => .ok ⟨uniqueId, reason⟩

end CloseMessage

namespace PingMessage

def messageId : UInt32 := 0x2

def toData (m : PingMessage) : QByteArray :=
  Message.prependMessageId (BigEndian.encode 8 m.uniqueId.toNat ++
    BigEndian.encode 8 m.counter.toNat ++ m.pingStats.toDataStream) messageId

/-- Never fails, and ignores what is left of the stream. -/
def fromData (data : QByteArray) : PingMessage :=
  let uniqueId := QDataStream.readUInt64 data
  let counter := QDataStream.readUInt64 uniqueId.2
  ⟨uniqueId.1, counter.1, (PingStats.fromDataStream counter.2).1⟩

end PingMessage

namespace Message

/-- The bytes every constructor stores in `m_data`. -/
def getData : Message → QByteArray
  | welcome m => m.toData
  | ping m => m.toData
  | close m => m.toData

def getUniqueId : Message → UInt64
  | welcome m => m.uniqueId
  | ping m => m.uniqueId
  | close m => m.uniqueId

end Message

namespace NetworkCore

def maxTimeLateMs : ℤ := 100

/-- `none` is the null pointer: the message is dropped. -/
def parseIncomingMessage (qt : QtText) (data : QByteArray) :
    Except ProtocolErrorException (Option Message) :=
  match Message.extractMessageId data with
  | .error e => .error e
  | .ok (message, messageId, ok) =>
    if !ok then .ok none
    else if messageId = WelcomeMessage.messageId then
      (WelcomeMessage.fromData qt message).map fun m => some (.welcome m)
    else if messageId = PingMessage.messageId then
      .ok (some (.ping (PingMessage.fromData message)))
    else if messageId = CloseMessage.messageId then
      (CloseMessage.fromData qt message).map fun m => some (.close m)
    else .ok none

end NetworkCore

end PacketLossUtils
