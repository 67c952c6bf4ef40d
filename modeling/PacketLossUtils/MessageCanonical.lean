import PacketLossUtils.DatagramLoop
import PacketLossUtils.Lib.Decimal
import PacketLossUtils.ReceivedStats

/-! Which datagrams are read as a message whose encoding they are. -/
namespace PacketLossUtils

open QDataStream

variable {qt : QtText} {data body : QByteArray} {s : QString} {bound : ℕ}

/-! ### Numerals -/

/-- A numeral as `QString::number` writes it, of a value below the bound. -/
def Numeral (bound : ℕ) (s : QString) : Prop :=
  Decimal.Canonical s ∧ Nat.ofDigitChars 10 s 0 < bound

theorem numeral_iff : Numeral bound s ↔ ∃ n : ℕ, n < bound ∧ s = QString.number n := by
  constructor
  · rintro ⟨hcanonical, hlt⟩
    obtain ⟨n, rfl⟩ := Decimal.canonical_iff.mp hcanonical
    rw [Nat.ofDigitChars_ten_toDigits] at hlt
    exact ⟨n, hlt, (QString.number_natCast n).symm⟩
  · rintro ⟨n, hlt, rfl⟩
    refine ⟨Decimal.canonical_iff.mpr ⟨n, QString.number_natCast n⟩, ?_⟩
    rwa [QString.number_natCast, Nat.ofDigitChars_ten_toDigits]

theorem numeral_uint64_iff : Numeral (2 ^ 64) s ↔ ∃ n : UInt64, s = QString.number n.toNat := by
  rw [numeral_iff]
  constructor
  · rintro ⟨n, hn, rfl⟩
    refine ⟨n.toUInt64, ?_⟩
    rw [UInt64.toNat_ofNat', Nat.mod_eq_of_lt hn]
  · rintro ⟨n, rfl⟩
    exact ⟨n.toNat, n.toNat_lt, rfl⟩

theorem numeral_uint32_iff : Numeral (2 ^ 32) s ↔ ∃ n : UInt32, s = QString.number n.toNat := by
  rw [numeral_iff]
  constructor
  · rintro ⟨n, hn, rfl⟩
    refine ⟨n.toUInt32, ?_⟩
    rw [UInt32.toNat_ofNat', Nat.mod_eq_of_lt hn]
  · rintro ⟨n, rfl⟩
    exact ⟨n.toNat, n.toNat_lt, rfl⟩

/-! ### Text messages -/

/-- The bytes of a Welcome behind its id: the four keywords, the version, and two numerals. -/
def WelcomeBytes (body : QByteArray) : Prop :=
  ∃ uniqueId interval, Numeral (2 ^ 64) uniqueId ∧ Numeral (2 ^ 32) interval ∧
    body = QString.toUtf8 (['\n'].intercalate ["PACKAGELOSSUTILS".toList, "VERSION".toList,
      "1".toList, "ID".toList, uniqueId, "INTERVAL".toList, interval])

/-- The bytes of a Close behind its id: two numerals. -/
def CloseBytes (body : QByteArray) : Prop :=
  ∃ uniqueId reason, Numeral (2 ^ 64) uniqueId ∧ Numeral (2 ^ 32) reason ∧
    body = QString.toUtf8 (['\n'].intercalate [uniqueId, reason])

theorem number_protocolVersion :
    QString.number WelcomeMessage.protocolVersion.toNat = "1".toList := by
  rw [QString.number_natCast, Nat.toDigits_of_lt_base (by decide)]
  rfl

theorem welcomeBytes_iff : WelcomeBytes body ↔
    ∃ m : WelcomeMessage, m.version = WelcomeMessage.protocolVersion ∧
      QString.toUtf8 m.toText = body := by
  constructor
  · rintro ⟨uniqueId, interval, hid, hinterval, rfl⟩
    obtain ⟨uniqueId, rfl⟩ := numeral_uint64_iff.mp hid
    obtain ⟨interval, rfl⟩ := numeral_uint32_iff.mp hinterval
    refine ⟨.new uniqueId interval, rfl, ?_⟩
    rw [WelcomeMessage.toText_eq, WelcomeMessage.new, number_protocolVersion]
  · rintro ⟨m, hversion, rfl⟩
    refine ⟨_, _, numeral_uint64_iff.mpr ⟨m.uniqueId, rfl⟩,
      numeral_uint32_iff.mpr ⟨m.pingIntervalInMs, rfl⟩, ?_⟩
    rw [WelcomeMessage.toText_eq, hversion, number_protocolVersion]

theorem closeBytes_iff : CloseBytes body ↔
    ∃ m : CloseMessage, True ∧ QString.toUtf8 m.toText = body := by
  constructor
  · rintro ⟨uniqueId, reason, hid, hreason, rfl⟩
    obtain ⟨uniqueId, rfl⟩ := numeral_uint64_iff.mp hid
    obtain ⟨reason, rfl⟩ := numeral_uint32_iff.mp hreason
    exact ⟨⟨uniqueId, reason⟩, trivial, by rw [CloseMessage.toText_eq]⟩
  · rintro ⟨m, -, rfl⟩
    exact ⟨_, _, numeral_uint64_iff.mpr ⟨m.uniqueId, rfl⟩,
      numeral_uint32_iff.mpr ⟨m.reason, rfl⟩, by rw [CloseMessage.toText_eq]⟩

/-- A decoder that reads back what is built: what it reads is written again as it was if and
only if it reads nothing, or the bytes are an encoding. -/
theorem reencodes_text_iff {M : Type} {decoded : Except ProtocolErrorException M}
    {toText : M → QString} {Built : M → Prop} (hbuilt : ∀ m, decoded = .ok m → Built m)
    (hround : ∀ m, Built m → QString.toUtf8 (toText m) = body → decoded = .ok m) :
    (∀ m, decoded = .ok m → QString.toUtf8 (toText m) = body) ↔
      (∃ e, decoded = .error e) ∨ ∃ m, Built m ∧ QString.toUtf8 (toText m) = body := by
  constructor
  · intro h
    cases hm : decoded with
    | error e => exact .inl ⟨e, rfl⟩
    | ok m => exact .inr ⟨m, hbuilt m hm, h m hm⟩
  · rintro (⟨e, he⟩ | ⟨m, hm, hbody⟩) m' hm'
    · simp [he] at hm'
    · rw [hround m hm hbody] at hm'
      cases hm'
      exact hbody

theorem WelcomeMessage.version_of_fromData {m : WelcomeMessage}
    (h : fromData qt body = .ok m) : m.version = protocolVersion := by
  simp only [fromData] at h
  split at h
  · simp at h
  split at h
  · simp at h
  split at h
  · simp at h
  split at h
  · simp at h
  · cases h
    rfl

theorem reencodes_welcome_iff :
    (∀ m, WelcomeMessage.fromData qt body = .ok m → QString.toUtf8 m.toText = body) ↔
      ¬ NetworkCore.WelcomeText qt (qt.fromUtf8 body) ∨ WelcomeBytes body := by
  rw [← NetworkCore.welcome_fromData_eq_error_iff, welcomeBytes_iff]
  apply reencodes_text_iff
  · intro m
    exact WelcomeMessage.version_of_fromData
  · rintro m hm rfl
    exact WelcomeMessage.fromData_toText m hm

theorem reencodes_close_iff :
    (∀ m, CloseMessage.fromData qt body = .ok m → QString.toUtf8 m.toText = body) ↔
      ¬ NetworkCore.CloseText qt (qt.fromUtf8 body) ∨ CloseBytes body := by
  rw [← NetworkCore.close_fromData_eq_error_iff, closeBytes_iff]
  apply reencodes_text_iff
  · intros
    trivial
  · rintro m - rfl
    exact CloseMessage.fromData_toText m

/-! ### Pings -/

/-- The bytes of a ping: as many as its announced array needs, and no bit set between the end
of the array and the next byte. -/
def PingBytes (data : QByteArray) : Prop :=
  data.length = bitArrayEnd data + 24 ∧
    ¬ paddingSet (numberAt 4 20 data) ((data.drop 24).take ((numberAt 4 20 data + 7) / 8))

instance (data : QByteArray) : Decidable (PingBytes data) :=
  inferInstanceAs (Decidable (_ ∧ _))

theorem numberAt_lt (k offset : ℕ) (data : QByteArray) : numberAt k offset data < 256 ^ k := by
  rw [numberAt]
  split
  · refine (BigEndian.decode_lt _).trans_le (Nat.pow_le_pow_right (by decide) ?_)
    simp
  · exact Nat.pow_pos (by decide)

/-- A whole number is written as it was read. -/
theorem encode_numberAt {k offset : ℕ} (h : offset + k ≤ data.length) :
    BigEndian.encode k (numberAt k offset data) ++ data.drop (offset + k) = data.drop offset := by
  have hlen : ((data.drop offset).take k).length = k := by simp; omega
  have hread := BigEndian.encode_decode ((data.drop offset).take k)
  rw [hlen] at hread
  rw [numberAt, if_pos h, hread, ← List.drop_drop, List.take_append_drop]

theorem writeInt_toInt32 {n : ℕ} (hn : n < 256 ^ 4) : writeInt (toInt32 n) =
    BigEndian.encode 4 n := by
  have hmod : (toInt32 n % 2 ^ 32).toNat = n := by
    rw [toInt32]
    split <;> omega
  rw [writeInt, hmod]

theorem readUInt64_fst_drop (offset : ℕ) (data : QByteArray) :
    (readUInt64 (data.drop offset)).1.toNat = numberAt 8 offset data := by
  rw [readUInt64, readNumber_drop]
  exact Nat.mod_eq_of_lt (numberAt_lt 8 offset data)

theorem readInt_fst_drop (offset : ℕ) (data : QByteArray) :
    (readInt (data.drop offset)).1 = toInt32 (numberAt 4 offset data) := by
  rw [readInt, readNumber_drop]

theorem readInt_snd_drop (offset : ℕ) (data : QByteArray) :
    (readInt (data.drop offset)).2 = data.drop (offset + 4) := by
  rw [readInt, readNumber_drop]

/-- Without set padding, no bit from the announced length on is set. -/
theorem testBit_of_not_paddingSet {n : ℕ} {bytes : QByteArray} (hlen : bytes.length = (n + 7) / 8)
    (hpadding : ¬ paddingSet n bytes) {i : ℕ} (hi : n ≤ i) :
    (bytes.getD (i / 8) 0).toNat.testBit (i % 8) = false := by
  by_cases hbyte : i / 8 < bytes.length
  · have hodd : n % 8 ≠ 0 := by omega
    have hlast : bytes.getD (i / 8) 0 = bytes.getLastD 0 := by
      rw [List.getLastD_eq_getLast?, List.getLast?_eq_getElem?, List.getD_eq_getElem?_getD,
        show i / 8 = bytes.length - 1 by omega]
    have hzero : (bytes.getLastD 0).toNat / 2 ^ (n % 8) = 0 := by
      by_contra hset
      exact hpadding ⟨hodd, hset⟩
    rw [hlast]
    apply Nat.testBit_lt_two_pow
    calc (bytes.getLastD 0).toNat < 2 ^ (n % 8) :=
          (Nat.div_eq_zero_iff.mp hzero).resolve_left (Nat.pow_pos (by decide)).ne'
      _ ≤ 2 ^ (i % 8) := Nat.pow_le_pow_right (by decide) (by omega)
  · rw [List.getD_eq_getElem?_getD, List.getElem?_eq_none (by omega)]
    exact Nat.zero_testBit _

namespace PingBytes

/-- The array is written as it was read. -/
theorem writeBitArray_eq (h : PingBytes data) :
    writeBitArray (readBitArray (data.drop 20)).1 ++ data.drop (bitArrayEnd data) =
      data.drop 20 := by
  obtain ⟨hlen, hpadding⟩ := h
  rw [bitArrayEnd] at hlen ⊢
  have hbytes : ((data.drop 24).take ((numberAt 4 20 data + 7) / 8)).length =
      (numberAt 4 20 data + 7) / 8 := by
    rw [List.length_take, List.length_drop]
    omega
  have hread : (readBitArray (data.drop 20)).1 = BigEndian.unpackBits (numberAt 4 20 data)
      ((data.drop 24).take ((numberAt 4 20 data + 7) / 8)) := by
    simp only [readBitArray, readNumber_drop]
    rw [if_neg (by rw [List.length_drop]; omega), if_neg hpadding]
  rw [hread, writeBitArray, BigEndian.length_unpackBits,
    BigEndian.packBits_unpackBits hbytes fun i => testBit_of_not_paddingSet hbytes hpadding,
    List.append_assoc, ← List.drop_drop, List.take_append_drop]
  exact encode_numberAt (by omega)

theorem toDataStream_eq (h : PingBytes data) :
    (PingStats.fromDataStream (data.drop 20)).1.toDataStream = data.drop 20 := by
  have hend : BigEndian.encode 8 (numberAt 8 (bitArrayEnd data + 4 + 4 + 8) data) =
      data.drop (bitArrayEnd data + 4 + 4 + 8) := by
    have hlast : bitArrayEnd data + 4 + 4 + 8 + 8 ≤ data.length := h.1.ge
    have hlast := encode_numberAt hlast
    rwa [List.drop_eq_nil_of_le h.1.le, List.append_nil] at hlast
  simp only [PingStats.fromDataStream, PingStats.toDataStream, readBitArray_drop,
    readInt_fst_drop, readInt_snd_drop, readUInt64_fst_drop, readUInt64_drop,
    writeInt_toInt32 (numberAt_lt 4 _ data), List.append_assoc]
  rw [hend, encode_numberAt (by have := h.1; omega), encode_numberAt (by have := h.1; omega),
    encode_numberAt (by have := h.1; omega), h.writeBitArray_eq]

end PingBytes

theorem PingMessage.drop_toData (m : PingMessage) :
    m.toData.drop 20 = m.pingStats.toDataStream := by
  rw [toData, Message.prependMessageId, ← List.append_assoc, ← List.append_assoc]
  exact List.drop_left' (by simp)

/-- What is written for a ping has the shape of one. -/
theorem PingMessage.pingBytes_toData {m : PingMessage}
    (hsize : m.pingStats.bitArray.length < 2 ^ 32) : PingBytes m.toData := by
  have hannounced : numberAt 4 20 m.toData = m.pingStats.bitArray.length := by
    have hread := readNumber_encode (k := 4) (by omega : m.pingStats.bitArray.length < 256 ^ 4)
    have hnumber := readNumber_drop 4 20 m.toData
    rw [drop_toData, PingStats.toDataStream, writeBitArray] at hnumber
    simp only [List.append_assoc, hread] at hnumber
    exact (congrArg Prod.fst hnumber).symm
  have hbytes : (m.toData.drop 24).take ((m.pingStats.bitArray.length + 7) / 8) =
      BigEndian.packBits m.pingStats.bitArray := by
    rw [show 24 = 20 + 4 from rfl, ← List.drop_drop, drop_toData, PingStats.toDataStream,
      writeBitArray]
    simp only [List.append_assoc]
    rw [List.drop_left' (BigEndian.length_encode ..)]
    exact List.take_left' (BigEndian.length_packBits _)
  refine ⟨?_, ?_⟩
  · rw [bitArrayEnd, hannounced]
    simp [toData, Message.prependMessageId, PingStats.toDataStream, writeBitArray, writeInt]
    omega
  · rw [hannounced, hbytes]
    exact not_paddingSet_packBits _

/-! ### Dispatch -/

namespace NetworkCore

theorem prependMessageId_leadingId (hlen : 4 ≤ data.length) :
    Message.prependMessageId (data.drop 4) (leadingId data) = data := by
  have htake : (data.take 4).length = 4 := by simp; omega
  have hlt := BigEndian.decode_lt (data.take 4)
  have hread := BigEndian.encode_decode (data.take 4)
  rw [htake] at hlt hread
  have hid : (leadingId data).toNat = BigEndian.decode (data.take 4) := by
    rw [leadingId, UInt32.toNat_ofNat']
    exact Nat.mod_eq_of_lt hlt
  rw [Message.prependMessageId, hid, hread, List.take_append_drop]

theorem prependMessageId_eq_iff {messageId : UInt32} (hlen : 4 ≤ data.length)
    (hid : leadingId data = messageId) :
    Message.prependMessageId body messageId = data ↔ body = data.drop 4 := by
  constructor
  · rintro rfl
    exact (List.drop_left' (BigEndian.length_encode ..)).symm
  · rintro rfl
    rw [← hid, prependMessageId_leadingId hlen]

theorem reencodes_ping_iff (hlen : 4 ≤ data.length) (hid : leadingId data = PingMessage.messageId) :
    (PingMessage.fromData (data.drop 4)).toData = data ↔ PingBytes data := by
  constructor
  · intro h
    have hsize : (PingMessage.fromData (data.drop 4)).pingStats.bitArray.length < 2 ^ 32 := by
      rw [PingMessage.fromData_drop]
      have hread := length_readBitArray data
      have hlt := numberAt_lt 4 20 data
      change (readBitArray (data.drop 20)).1.length < 2 ^ 32
      omega
    rw [← h]
    exact PingMessage.pingBytes_toData hsize
  · intro h
    have hend := h.1
    rw [bitArrayEnd] at hend
    rw [PingMessage.toData, prependMessageId_eq_iff hlen hid, PingMessage.fromData_drop,
      h.toDataStream_eq]
    simp only [PingMessage.fromData, readUInt64_fst_drop, readUInt64_drop, List.append_assoc]
    rw [encode_numberAt (by omega), encode_numberAt (by omega)]

/-- Only its own encoding is read as a message. -/
def Reencodes (qt : QtText) (data : QByteArray) : Prop :=
  ∀ m, parseIncomingMessage qt data = .ok (some m) → m.getData = data

/-- The decoder of each message, behind the id. -/
theorem parse_eq_some_iff {m : Message} :
    parseIncomingMessage qt data = .ok (some m) ↔ 4 ≤ data.length ∧
      match m with
      | .welcome m => leadingId data = WelcomeMessage.messageId ∧
          WelcomeMessage.fromData qt (data.drop 4) = .ok m
      | .ping m => leadingId data = PingMessage.messageId ∧
          PingMessage.fromData (data.drop 4) = m
      | .close m => leadingId data = CloseMessage.messageId ∧
          CloseMessage.fromData qt (data.drop 4) = .ok m := by
  have hwp : PingMessage.messageId ≠ WelcomeMessage.messageId := by decide
  have hwc : CloseMessage.messageId ≠ WelcomeMessage.messageId := by decide
  have hpc : CloseMessage.messageId ≠ PingMessage.messageId := by decide
  rw [parseIncomingMessage, Message.extractMessageId]
  by_cases hlen : data.length < 4
  · simp [hlen]
  simp only [hlen, if_false, Bool.not_true, Bool.false_eq_true, show 4 ≤ data.length by omega,
    true_and]
  rw [← leadingId]
  by_cases hwelcome : leadingId data = WelcomeMessage.messageId
  · rw [if_pos hwelcome]
    cases hm : WelcomeMessage.fromData qt (data.drop 4) <;> cases m <;>
      simp [Except.map, hwelcome, hwp.symm, hwc.symm]
  rw [if_neg hwelcome]
  by_cases hping : leadingId data = PingMessage.messageId
  · rw [if_pos hping]
    cases m <;> simp [hping, hwp, hpc.symm]
  rw [if_neg hping]
  by_cases hclose : leadingId data = CloseMessage.messageId
  · rw [if_pos hclose]
    cases hm : CloseMessage.fromData qt (data.drop 4) <;> cases m <;>
      simp [Except.map, hclose, hwc, hpc]
  · rw [if_neg hclose]
    cases m <;> simp [hwelcome, hping, hclose]

/-- Too short for an id, or of the shape the id asks for. The decoder of pings refuses nothing;
those of the other two messages do. -/
def Canonical (qt : QtText) (data : QByteArray) : Prop :=
  data.length < 4 ∨
    (leadingId data = WelcomeMessage.messageId →
      ¬ WelcomeText qt (qt.fromUtf8 (data.drop 4)) ∨ WelcomeBytes (data.drop 4)) ∧
    (leadingId data = PingMessage.messageId → PingBytes data) ∧
    (leadingId data = CloseMessage.messageId →
      ¬ CloseText qt (qt.fromUtf8 (data.drop 4)) ∨ CloseBytes (data.drop 4))

theorem reencodes_iff_canonical : Reencodes qt data ↔ Canonical qt data := by
  by_cases hlen : data.length < 4
  · refine iff_of_true (fun m hm => ?_) (.inl hlen)
    have := (parse_eq_some_iff.mp hm).1
    omega
  have hlen' : 4 ≤ data.length := by omega
  rw [Canonical, or_iff_right hlen]
  constructor
  · intro h
    refine ⟨fun hid => reencodes_welcome_iff.mp fun m hm => ?_, fun hid => ?_,
      fun hid => reencodes_close_iff.mp fun m hm => ?_⟩
    · exact (prependMessageId_eq_iff hlen' hid).mp
        (h (.welcome m) (parse_eq_some_iff.mpr ⟨hlen', hid, hm⟩))
    · exact (reencodes_ping_iff hlen' hid).mp
        (h (.ping _) (parse_eq_some_iff.mpr ⟨hlen', hid, rfl⟩))
    · exact (prependMessageId_eq_iff hlen' hid).mp
        (h (.close m) (parse_eq_some_iff.mpr ⟨hlen', hid, hm⟩))
  · rintro ⟨hwelcome, hping, hclose⟩ m hm
    obtain ⟨_, hm⟩ := parse_eq_some_iff.mp hm
    cases m with
    | welcome m =>
      obtain ⟨hid, hm⟩ := hm
      exact (prependMessageId_eq_iff hlen' hid).mpr (reencodes_welcome_iff.mpr (hwelcome hid) m hm)
    | ping m =>
      obtain ⟨hid, rfl⟩ := hm
      exact (reencodes_ping_iff hlen' hid).mpr (hping hid)
    | close m =>
      obtain ⟨hid, hm⟩ := hm
      exact (prependMessageId_eq_iff hlen' hid).mpr (reencodes_close_iff.mpr (hclose hid) m hm)

/-- A message that was read is written as it was read if and only if the datagram is of the
shape of its id. The server's answer to a Welcome is the message it read. -/
theorem reencodes_iff {Address : Type} (qt : QtText) (data : QByteArray) :
    (Reencodes qt data ↔ Canonical qt data) ∧
      ∀ (s : Server Address) (now now' : ℤ) (address : Address) (port : UInt16)
        (m : WelcomeMessage), parseIncomingMessage qt data = .ok (some (.welcome m)) →
        ∀ answer peer peerPort, .writeDatagram answer peer peerPort ∈
          (s.receivedMessage now now' address port (.welcome m)).2 →
          (answer.getData = data ↔ Canonical qt data) := by
  refine ⟨reencodes_iff_canonical, ?_⟩
  intro s now now' address port m hparse answer peer peerPort hanswer
  have hsame : answer = .welcome m := by
    simp only [Server.receivedMessage] at hanswer
    split at hanswer
    · simp at hanswer
    split at hanswer
    · simp at hanswer
    · simp only [List.mem_singleton, Effect.writeDatagram.injEq] at hanswer
      exact hanswer.1
  rw [hsame, ← reencodes_iff_canonical, Reencodes, hparse]
  simp

/-- A new server answers the first Welcome with the bytes it came in. -/
theorem reencodes_iff_welcome :
    (Message.welcome (.new 7 250)).getData = (WelcomeMessage.new 7 250).toData ↔
      Canonical .ascii (WelcomeMessage.new 7 250).toData := by
  have hparse := parseIncomingMessage_getData .ascii (m := .welcome (.new 7 250)) rfl
  have hanswer : Effect.writeDatagram (.welcome (.new 7 250)) 2 5000 ∈
      (Server.new.receivedMessage 0 0 (2 : ℕ) 5000 (.welcome (.new 7 250))).2 := by
    simp [Server.receivedMessage, Server.new, WelcomeMessage.new,
      show (250 : UInt32) % Server.baseTimerInterval = 0 from rfl]
  exact (reencodes_iff .ascii _).2 .new 0 0 2 5000 _ hparse _ 2 5000 hanswer

/-- Nothing but the id of a ping is read as a ping. -/
theorem not_reencodes_truncated_ping : ¬ ∀ data, Reencodes .ascii data := by
  intro h
  have hping := h [0, 0, 0, 2] (.ping (PingMessage.fromData [])) rfl
  exact absurd (congrArg List.length hping) (by decide)

end NetworkCore

end PacketLossUtils
