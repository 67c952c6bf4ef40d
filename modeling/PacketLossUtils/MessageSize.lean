import Mathlib.Data.Nat.Digits.Defs
import PacketLossUtils.MessageRoundTrip

/-! How long the datagrams of the program are. -/
namespace PacketLossUtils

namespace QString

theorem length_toUtf8 {s : QString} (hs : ∀ c ∈ s, 0 < c.toNat ∧ c.toNat < 128) :
    s.toUtf8.length = s.length := by
  induction s with
  | nil => rfl
  | cons c s ih =>
    obtain ⟨hc, hs⟩ := List.forall_mem_cons.mp hs
    have ih := ih hs
    rw [toUtf8] at ih
    rw [toUtf8, List.flatMap_cons, QtText.utf8EncodeChar_ascii hc.2, List.length_append, ih,
      List.length_singleton, List.length_cons, Nat.add_comm]

theorem length_number_le {n k : ℕ} (hk : 0 < k) (hn : n < 10 ^ k) : (number n).length ≤ k := by
  rw [number_natCast]
  exact Nat.toDigits_length 10 n k hk hn

theorem length_number_uint32 (n : UInt32) : (number n.toNat).length ≤ 10 :=
  length_number_le (by decide) (n.toNat_lt.trans (by decide))

theorem length_number_uint64 (n : UInt64) : (number n.toNat).length ≤ 20 :=
  length_number_le (by decide) (n.toNat_lt.trans (by decide))

end QString

theorem length_prependMessageId (data : QByteArray) (messageId : UInt32) :
    (Message.prependMessageId data messageId).length = 4 + data.length := by
  rw [Message.prependMessageId, List.length_append, BigEndian.length_encode]

theorem WelcomeMessage.length_toData_le (m : WelcomeMessage) : m.toData.length ≤ 83 := by
  have hversion := QString.length_number_uint32 m.version
  have hid := QString.length_number_uint64 m.uniqueId
  have hinterval := QString.length_number_uint32 m.pingIntervalInMs
  have hline : ∀ p ∈ ["PACKAGELOSSUTILS".toList, "VERSION".toList,
      QString.number m.version.toNat, "ID".toList, QString.number m.uniqueId.toNat,
      "INTERVAL".toList, QString.number m.pingIntervalInMs.toNat], QString.Line p := by
    simp only [List.forall_mem_cons, QString.line_number, true_and]
    exact ⟨by decide, by decide, by decide, by decide, by simp⟩
  rw [toData, length_prependMessageId, toText_eq,
    QString.length_toUtf8 (QString.ascii_intercalate hline)]
  simp [List.intercalate, List.intersperse]
  omega

theorem CloseMessage.length_toData_le (m : CloseMessage) : m.toData.length ≤ 35 := by
  have hid := QString.length_number_uint64 m.uniqueId
  have hreason := QString.length_number_uint32 m.reason
  have hline : ∀ p ∈ [QString.number m.uniqueId.toNat, QString.number m.reason.toNat],
      QString.Line p := by
    simp [QString.line_number]
  rw [toData, length_prependMessageId, toText_eq,
    QString.length_toUtf8 (QString.ascii_intercalate hline)]
  simp [List.intercalate, List.intersperse]
  omega

theorem PingMessage.length_toData (m : PingMessage) :
    m.toData.length = 48 + (m.pingStats.bitArray.length + 7) / 8 := by
  simp only [toData, length_prependMessageId, PingStats.toDataStream, QDataStream.writeBitArray,
    QDataStream.writeInt, List.length_append, BigEndian.length_encode, BigEndian.length_packBits]
  omega

end PacketLossUtils
