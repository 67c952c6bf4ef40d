import Mathlib.Tactic.Linarith
import Mathlib.Data.Rat.Defs

/-! The reception statistics: a wrapping bit array with its position and fill level. -/
namespace PacketLossUtils

/-- `QBitArray`, lowest index first. -/
abbrev QBitArray := List Bool

namespace QBitArray

/-- An index outside the array reads as 0 here; in the source it is undefined behaviour. -/
def testBit (bits : QBitArray) (i : ℤ) : Bool :=
  decide (0 ≤ i) && bits.getD i.toNat false

def setBit (bits : QBitArray) (i : ℤ) (value : Bool) : QBitArray :=
  if 0 ≤ i then bits.set i.toNat value else bits

end QBitArray

/-- `QString`, as its characters. -/
abbrev QString := List Char

/-- `QString::number`. -/
def QString.number (n : ℤ) : QString := n.repr.toList

structure PingStats where
  bitArray : QBitArray
  currentPosition : ℤ
  storedBitCount : ℤ
  packetsSent : UInt64
  packetsReceived : UInt64
  deriving DecidableEq, Repr

namespace PingStats

def maxBitCount : ℕ := 2000

def initialized : PingStats where
  bitArray := List.replicate maxBitCount false
  currentPosition := -1
  storedBitCount := 0
  packetsSent := 0
  packetsReceived := 0

/-- The position `addResult` writes: `(m_currentPosition + 1) % MAX_BIT_COUNT`, with the
truncated `%` of the source. -/
def nextPosition (t : PingStats) : ℤ := (t.currentPosition + 1).tmod maxBitCount

def addResult (t : PingStats) (didArrive : Bool) : PingStats :=
  { t with
    currentPosition := t.nextPosition
    bitArray := QBitArray.setBit t.bitArray t.nextPosition didArrive
    storedBitCount :=
      if t.storedBitCount < maxBitCount then t.storedBitCount + 1 else t.storedBitCount }

def addPacketSent (t : PingStats) : PingStats := { t with packetsSent := t.packetsSent + 1 }

def addPacketReceived (t : PingStats) : PingStats :=
  { t with packetsReceived := t.packetsReceived + 1 }

/-- What a function that reads the array returns, with the indices it passes to `testBit`. -/
structure Reading (α : Type) where
  tested : List ℤ
  result : α

/-- The loop of both readers, from round `i` on: `body` takes the bit at `pos` into the result, then
`--pos`, and `pos += MAX_BIT_COUNT` below zero. -/
def readLoop {α : Type} (bits : QBitArray) (body : ℕ → Bool → α → α) :
    ℕ → ℕ → ℤ → α → Reading α
  | 0, _, _, result => ⟨[], result⟩
  | iterations + 1, i, pos, result =>
    let rest := readLoop bits body iterations (i + 1)
      (if pos - 1 < 0 then pos - 1 + maxBitCount else pos - 1)
      (body i (QBitArray.testBit bits pos) result)
    { rest with tested := pos :: rest.tested }

/-- The bits `getPercentReceivedOverTime` looks at. -/
def bitsToLookAt (t : PingStats) (intervals : ℤ) : ℤ := min t.storedBitCount intervals

/-- `++received`, where the bit is set. -/
def countBit (_ : ℕ) (bit : Bool) (received : ℕ) : ℕ := if bit then received + 1 else received

/-- The percentage as the exact quotient the source rounds to a `double`. -/
def readPercent (t : PingStats) (intervals : ℤ) : Reading ℚ :=
  if t.bitsToLookAt intervals ≤ 0 then ⟨[], 0⟩
  else
    let received := readLoop t.bitArray countBit (t.bitsToLookAt intervals).toNat 0
      t.currentPosition 0
    ⟨received.tested, (received.result : ℚ) / (t.bitsToLookAt intervals : ℚ) * 100⟩

def getPercentReceivedOverTime (t : PingStats) (intervals : ℤ) : ℚ :=
  (t.readPercent intervals).result

/-- A digit, with a blank before every fifth one but the first. -/
def appendDigit (i : ℕ) (bit : Bool) (result : QString) : QString :=
  result ++ (if 0 < i ∧ i % 5 = 0 then [' '] else []) ++ (if bit then ['1'] else ['0'])

def readText (t : PingStats) : Reading QString :=
  let digits := readLoop t.bitArray appendDigit t.storedBitCount.toNat 0 t.currentPosition
    "PingStats(".toList
  { digits with
    result := digits.result ++
      ", currentPosition = ".toList ++ QString.number t.currentPosition ++
      ", storedBitCount = ".toList ++ QString.number t.storedBitCount ++
      ", packetsSent = ".toList ++ QString.number t.packetsSent.toNat ++
      ", packetsReceived = ".toList ++ QString.number t.packetsReceived.toNat ++ ")".toList }

def toString (t : PingStats) : QString := t.readText.result

/-- The calls that change a `PingStats`. -/
inductive Call
  | addResult (didArrive : Bool)
  | addPacketSent
  | addPacketReceived
  deriving DecidableEq, Repr

def apply (t : PingStats) : Call → PingStats
  | .addResult didArrive => t.addResult didArrive
  | .addPacketSent => t.addPacketSent
  | .addPacketReceived => t.addPacketReceived

/-- The statistics after the calls, from `initialize()`. -/
def replay (calls : List Call) : PingStats := calls.foldl apply initialized

/-- The arguments of the `addResult` calls, oldest first. -/
def results (calls : List Call) : List Bool :=
  calls.filterMap fun
    | .addResult didArrive => some didArrive
    | _ => none

end PingStats

end PacketLossUtils
