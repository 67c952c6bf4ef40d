import PacketLossUtils.ClientRun
import PacketLossUtils.MessageRoundTrip

/-! Which statistics the client can be made to show, and which of them it can read safely. -/
namespace PacketLossUtils

/-! ### Reading statistics -/

namespace PingStats

/-- Whatever window is asked for, only bits of the array are read; and the shape that warrants
this. -/
structure SafeToQuery (t : PingStats) : Prop where
  window : ∀ k : ℤ, ∀ pos ∈ (t.readPercent k).tested, 0 ≤ pos ∧ pos < t.bitArray.length
  full : ∀ pos ∈ t.readText.tested, 0 ≤ pos ∧ pos < t.bitArray.length
  position : 0 < t.storedBitCount → 0 ≤ t.currentPosition ∧ t.currentPosition < t.bitArray.length
  size : 0 < t.storedBitCount → t.bitArray.length = maxBitCount
  stored : t.storedBitCount ≤ maxBitCount

variable {t : PingStats}

theorem positionsRead_lt {pos : ℤ} (hlo : 0 ≤ pos) (hhi : pos < maxBitCount) (w : ℕ) :
    ∀ q ∈ positionsRead w pos, 0 ≤ q ∧ q < maxBitCount := by
  obtain ⟨p, rfl⟩ := Int.eq_ofNat_of_zero_le hlo
  have hp : p < maxBitCount := by omega
  intro q hq
  rw [positionsRead_natCast w hp] at hq
  obtain ⟨i, hi, rfl⟩ := List.mem_map.mp hq
  have := Circular.back_lt (by decide) hp i hi
  omega

/-- The shape alone decides. -/
theorem safeToQuery_iff : SafeToQuery t ↔ (0 < t.storedBitCount →
    t.bitArray.length = maxBitCount ∧ 0 ≤ t.currentPosition ∧ t.currentPosition < maxBitCount ∧
      t.storedBitCount ≤ maxBitCount) := by
  constructor
  · intro h hpos
    have hposition := h.position hpos
    rw [h.size hpos] at hposition
    exact ⟨h.size hpos, hposition.1, hposition.2, h.stored⟩
  · intro h
    have hread : ∀ w : ℕ, (0 < w → 0 < t.storedBitCount) →
        ∀ pos ∈ positionsRead w t.currentPosition, 0 ≤ pos ∧ pos < t.bitArray.length := by
      intro w hw pos hpos
      rcases Nat.eq_zero_or_pos w with rfl | hw0
      · simp [positionsRead] at hpos
      · obtain ⟨hsize, hlo, hhi, _⟩ := h (hw hw0)
        rw [hsize]
        exact positionsRead_lt hlo hhi w pos hpos
    refine ⟨?_, ?_, ?_, fun hpos => (h hpos).1, ?_⟩
    · intro k
      rw [tested_readPercent, bitsToLookAt]
      exact hread _ (by omega)
    · rw [tested_readText]
      exact hread _ (by omega)
    · intro hpos
      rw [(h hpos).1]
      exact ⟨(h hpos).2.1, (h hpos).2.2.1⟩
    · by_cases hpos : 0 < t.storedBitCount
      · exact (h hpos).2.2.2
      · simp only [maxBitCount]
        omega

theorem Represents.safeToQuery {h : List Bool} (hr : Represents t h) : SafeToQuery t := by
  rw [safeToQuery_iff]
  intro hpos
  have hposition := hr.position
  have hstored := hr.stored
  refine ⟨hr.size, ?_⟩
  rw [hposition, hstored]
  simp only [maxBitCount] at *
  split <;> omega

end PingStats

/-! ### The bytes of a ping -/

namespace QDataStream

variable {data : QByteArray}

/-- The `k`-byte number at an offset, or 0 if the data ends before it does. -/
def numberAt (k offset : ℕ) (data : QByteArray) : ℕ :=
  if offset + k ≤ data.length then BigEndian.decode ((data.drop offset).take k) else 0

theorem readNumber_drop (k offset : ℕ) (data : QByteArray) :
    readNumber k (data.drop offset) = (numberAt k offset data, data.drop (offset + k)) := by
  rw [readNumber, numberAt, List.length_drop]
  rcases Nat.eq_zero_or_pos k with rfl | hk
  · simp [BigEndian.decode]
  by_cases h : offset + k ≤ data.length
  · rw [if_neg (by omega), if_pos h, List.drop_drop]
  · rw [if_pos (by omega), if_neg h, List.drop_eq_nil_of_le (by omega)]

theorem readUInt64_drop (offset : ℕ) (data : QByteArray) :
    (readUInt64 (data.drop offset)).2 = data.drop (offset + 8) := by
  rw [readUInt64, readNumber_drop]

/-- Where the bit array of a ping ends. -/
def bitArrayEnd (data : QByteArray) : ℕ := 24 + (numberAt 4 20 data + 7) / 8

def positionAt (data : QByteArray) : ℤ := toInt32 (numberAt 4 (bitArrayEnd data) data)

def storedAt (data : QByteArray) : ℤ := toInt32 (numberAt 4 (bitArrayEnd data + 4) data)

theorem readBitArray_drop (data : QByteArray) :
    (readBitArray (data.drop 20)).2 = data.drop (bitArrayEnd data) := by
  simp only [readBitArray, readNumber_drop, List.drop_drop, bitArrayEnd]
  split
  · rename_i hshort
    rw [List.length_drop] at hshort
    rw [List.drop_eq_nil_of_le (by omega)]
  · split <;> rfl

/-- The array is as long as announced, or empty. -/
theorem length_readBitArray (data : QByteArray) :
    (readBitArray (data.drop 20)).1.length = numberAt 4 20 data ∨
      (readBitArray (data.drop 20)).1.length = 0 := by
  simp only [readBitArray, readNumber_drop]
  split
  · exact .inr rfl
  · split
    · exact .inr rfl
    · exact .inl (BigEndian.length_unpackBits ..)

/-- With whole bytes there is no padding. -/
theorem length_readBitArray_of_whole (hwhole : numberAt 4 20 data % 8 = 0)
    (hend : bitArrayEnd data ≤ data.length) :
    (readBitArray (data.drop 20)).1.length = numberAt 4 20 data := by
  simp only [readBitArray, readNumber_drop]
  rw [bitArrayEnd] at hend
  rw [if_neg (by rw [List.length_drop]; omega), if_neg (by simp [paddingSet, hwhole])]
  exact BigEndian.length_unpackBits ..

end QDataStream

namespace PingMessage

open QDataStream

/-- The stored count is read as 0 or below, or 2000 bits are announced, the position is one of
them and the stored count at most their number. -/
def Consistent (data : QByteArray) : Prop :=
  0 < storedAt data → numberAt 4 20 data = PingStats.maxBitCount ∧ 0 ≤ positionAt data ∧
    positionAt data < PingStats.maxBitCount ∧ storedAt data ≤ PingStats.maxBitCount

instance (data : QByteArray) : Decidable (Consistent data) :=
  inferInstanceAs (Decidable (_ → _))

theorem fromData_drop (data : QByteArray) :
    (fromData (data.drop 4)).pingStats = (PingStats.fromDataStream (data.drop 20)).1 := by
  simp only [fromData, readUInt64_drop]

/-- The decoder lets through what is not consistent, and then the statistics are not safe. -/
theorem safeToQuery_fromData_iff (data : QByteArray) :
    (fromData (data.drop 4)).pingStats.SafeToQuery ↔ Consistent data := by
  have hposition : (fromData (data.drop 4)).pingStats.currentPosition = positionAt data := by
    simp only [fromData_drop, PingStats.fromDataStream, readBitArray_drop, readInt,
      readNumber_drop, positionAt]
  have hstored : (fromData (data.drop 4)).pingStats.storedBitCount = storedAt data := by
    simp only [fromData_drop, PingStats.fromDataStream, readBitArray_drop, readInt,
      readNumber_drop, storedAt]
  have hbits : (fromData (data.drop 4)).pingStats.bitArray = (readBitArray (data.drop 20)).1 := by
    rw [fromData_drop]
    rfl
  rw [PingStats.safeToQuery_iff, Consistent, hposition, hstored, hbits]
  refine forall_congr' fun hpos => and_congr_left fun _ => ?_
  constructor
  · intro hlen
    rcases length_readBitArray data with h | h
    · exact h.symm.trans hlen
    · simp [h, PingStats.maxBitCount] at hlen
  · intro hlen
    have hend : bitArrayEnd data + 4 + 4 ≤ data.length := by
      by_contra hshort
      simp [storedAt, numberAt, hshort, toInt32] at hpos
    rw [length_readBitArray_of_whole (by rw [hlen]; rfl) (by omega), hlen]

end PingMessage

/-- A datagram that is read as a ping. -/
theorem NetworkCore.parse_ping {qt : QtText} {data : QByteArray} {m : PingMessage}
    (h : parseIncomingMessage qt data = .ok (some (.ping m))) :
    m = PingMessage.fromData (data.drop 4) := by
  rw [parseIncomingMessage, Message.extractMessageId] at h
  by_cases hlen : data.length < 4
  · simp [hlen] at h
  · simp only [hlen, if_false, Bool.not_true, Bool.false_eq_true] at h
    split at h
    · cases hw : WelcomeMessage.fromData qt (data.drop 4) <;> simp [hw, Except.map] at h
    split at h
    · simpa using h.symm
    split at h
    · cases hc : CloseMessage.fromData qt (data.drop 4) <;> simp [hc, Except.map] at h
    · simp at h

/-! ### Runs of the client -/

namespace Client

variable {Address : Type} [HostAddress Address]

/-- The runs of a client whose configured server sends it any datagrams that parse. Those with
a ping it accepts, and so with new statistics, are restricted by `Admits`. -/
inductive Fed (qt : QtText) (Admits : QByteArray → Prop) : Client Address → Prop
  | new (address : Address) (port : UInt16) (interval : UInt32) (uniqueId : UInt64) :
      Fed qt Admits (.new address port interval uniqueId)
  | event {c : Client Address} (e : Event Address)
      (he : ∀ now address port m, e ≠ .message now address port m) (h : Fed qt Admits c) :
      Fed qt Admits (c.step e).1
  | datagram {c : Client Address} {data : QByteArray} {m : Message} (now : ℤ) {address : Address}
      (hsender : HostAddress.isEqual address c.serverHostAddress = true)
      (hparse : NetworkCore.parseIncomingMessage qt data = .ok (some m))
      (hadmits : c.accepted (.message now address c.serverPort m) ≠ [] → Admits data)
      (h : Fed qt Admits c) : Fed qt Admits (c.step (.message now address c.serverPort m)).1

variable {qt : QtText} {c : Client Address} {data : QByteArray} {m : Message} {now : ℤ}
  {address : Address} {port : UInt16}

/-- The statistics taken over with an accepted datagram are safe if and only if its bytes are
consistent. -/
theorem accepted_safeToQuery_iff
    (hparse : NetworkCore.parseIncomingMessage qt data = .ok (some m))
    (haccepted : c.accepted (.message now address port m) ≠ []) :
    (c.step (.message now address port m)).1.otherStats.SafeToQuery ↔
      PingMessage.Consistent data := by
  rcases step_otherStats (.message now address port m) c with
    ⟨hnone, _⟩ | ⟨_, _, _, m', he, _, hother⟩
  · exact (haccepted hnone).elim
  · cases he
    rw [hother, NetworkCore.parse_ping hparse]
    exact PingMessage.safeToQuery_fromData_iff data

/-- As long as every ping it accepts is consistent, the client never reads outside its array;
and the first one that is not leaves it with statistics that are not safe to query. -/
theorem otherStats_safeToQuery (qt : QtText) :
    (∀ c : Client Address, Fed qt PingMessage.Consistent c → c.otherStats.SafeToQuery) ∧
      ∀ (c : Client Address) (data : QByteArray) (m : Message) (now : ℤ) (address : Address)
        (port : UInt16), NetworkCore.parseIncomingMessage qt data = .ok (some m) →
        c.accepted (.message now address port m) ≠ [] →
        ((c.step (.message now address port m)).1.otherStats.SafeToQuery ↔
          PingMessage.Consistent data) := by
  refine ⟨?_, fun c data m now address port => accepted_safeToQuery_iff⟩
  intro c h
  induction h with
  | new => exact PingStats.represents_initialized.safeToQuery
  | @event c e he h ih =>
    rcases step_otherStats e c with ⟨_, hsame⟩ | ⟨_, _, _, _, hm, _⟩
    · rwa [hsame]
    · exact (he _ _ _ _ hm).elim
  | @datagram c data m now address hsender hparse hadmits h ih =>
    by_cases haccepted : c.accepted (.message now address c.serverPort m) = []
    · rcases step_otherStats (.message now address c.serverPort m) c with
        ⟨_, hsame⟩ | ⟨_, _, _, _, _, hm, _⟩
      · rwa [hsame]
      · simp [haccepted] at hm
    · exact (accepted_safeToQuery_iff hparse haccepted).mpr (hadmits haccepted)

/-- A ping with an empty array, position 0 and one stored bit. -/
def emptyArrayPing : QByteArray :=
  [0, 0, 0, 2] ++ List.replicate 16 0 ++ [0, 0, 0, 0] ++ [0, 0, 0, 0] ++ [0, 0, 0, 1] ++
    List.replicate 16 0

theorem not_safeToQuery_emptyArrayPing :
    ¬ ∀ c : Client ℕ, Fed .ascii (fun _ => True) c → c.otherStats.SafeToQuery := by
  intro h
  have hparse : NetworkCore.parseIncomingMessage .ascii emptyArrayPing =
      .ok (some (.ping (PingMessage.fromData (emptyArrayPing.drop 4)))) := rfl
  have hsafe := h _ (.datagram 0 (HostAddress.isEqual_self 1) hparse (fun _ => trivial)
    (.new 1 9000 250 7))
  rw [accepted_safeToQuery_iff hparse (by decide)] at hsafe
  exact absurd hsafe (by decide)

end Client

end PacketLossUtils
