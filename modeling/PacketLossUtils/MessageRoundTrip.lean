import PacketLossUtils.Message
import PacketLossUtils.PingStatsHistory

/-! Every message the program builds is read back as it was written. -/
namespace PacketLossUtils

/-! ### Text messages -/

namespace QString

variable {s pre a : QString} {n : ℕ}

theorem number_natCast (n : ℕ) : number (n : ℤ) = Nat.toDigits 10 n :=
  Nat.toList_repr

/-- The characters a decimal numeral is made of. -/
theorem isDigit_of_mem_number {c : Char} (hc : c ∈ number (n : ℤ)) : c.isDigit := by
  rw [number_natCast] at hc
  exact Nat.isDigit_of_mem_toDigits (by decide) (by decide) hc

theorem not_mem_number {c : Char} (hc : c.isDigit = false) : c ∉ number (n : ℤ) := by
  intro hmem
  simp [isDigit_of_mem_number hmem] at hc

theorem ascii_of_mem_number {c : Char} (hc : c ∈ number (n : ℤ)) :
    0 < c.toNat ∧ c.toNat < 128 := by
  have hd := isDigit_of_mem_number hc
  simp only [Char.isDigit, Bool.and_eq_true, decide_eq_true_eq] at hd
  have hlo := UInt32.le_iff_toNat_le.mp hd.1
  have hhi := UInt32.le_iff_toNat_le.mp hd.2
  change 48 ≤ c.toNat at hlo
  change c.toNat ≤ 57 at hhi
  omega

theorem placeMarkers_cons {c : Char} (hc : c ≠ '%') : placeMarkers (c :: s) = placeMarkers s := by
  rw [placeMarkers.eq_def]
  split <;> simp_all

theorem replaceMarker_cons {c : Char} (hc : c ≠ '%') :
    replaceMarker n a (c :: s) = c :: replaceMarker n a s := by
  rw [replaceMarker.eq_def]
  split <;> simp_all

/-- Text without a `%` has no place marker. -/
theorem placeMarkers_append (hp : '%' ∉ pre) : placeMarkers (pre ++ s) = placeMarkers s := by
  induction pre with
  | nil => rfl
  | cons c pre ih =>
    rw [List.cons_append, placeMarkers_cons (by rintro rfl; simp at hp)]
    exact ih (by simp_all)

theorem replaceMarker_append (hp : '%' ∉ pre) :
    replaceMarker n a (pre ++ s) = pre ++ replaceMarker n a s := by
  induction pre with
  | nil => rfl
  | cons c pre ih =>
    rw [List.cons_append, replaceMarker_cons (by rintro rfl; simp at hp), List.cons_append,
      ih (by simp_all)]

/-- `arg` leaves the text before the first `%` alone. -/
theorem arg_append (hp : '%' ∉ pre) : arg (pre ++ s) a = pre ++ arg s a := by
  rw [arg, arg, placeMarkers_append hp]
  split
  · exact replaceMarker_append hp
  · rfl

/-- ASCII text without U+0000 and without a line break. -/
def Line (s : QString) : Prop := ∀ c ∈ s, (0 < c.toNat ∧ c.toNat < 128) ∧ c ≠ '\n'

instance (s : QString) : Decidable (Line s) :=
  decidable_of_iff (s.all fun c => decide (0 < c.toNat) && decide (c.toNat < 128) && c != '\n')
    (by simp [Line])

theorem line_number (n : ℕ) : Line (number n) := by
  intro c hc
  refine ⟨ascii_of_mem_number hc, ?_⟩
  rintro rfl
  exact not_mem_number (by decide) hc

theorem ascii_intercalate {parts : List QString} (h : ∀ p ∈ parts, Line p) :
    ∀ c ∈ ['\n'].intercalate parts, 0 < c.toNat ∧ c.toNat < 128 := by
  induction parts with
  | nil => simp [List.intercalate]
  | cons p parts ih =>
    have hp := h p (by simp)
    have hps := ih fun q hq => h q (by simp [hq])
    cases parts with
    | nil => simpa using fun c hc => (hp c hc).1
    | cons q parts =>
      intro c hc
      rw [List.intercalate_cons_cons, List.mem_append, List.mem_append] at hc
      obtain (hc | hc) | hc := hc
      · exact (hp c hc).1
      · rw [List.mem_singleton.mp hc]
        decide
      · exact hps c hc

/-- Lines joined, encoded, decoded and split are the lines. -/
theorem splitOn_fromUtf8 (qt : QtText) {parts : List QString} (h : ∀ p ∈ parts, Line p)
    (hne : parts ≠ []) :
    (qt.fromUtf8 (toUtf8 (['\n'].intercalate parts))).splitOn '\n' = parts := by
  rw [qt.fromUtf8_toUtf8 _ (ascii_intercalate h)]
  exact List.splitOn_intercalate '\n' (fun p hp hmem => (h p hp _ hmem).2 rfl) hne

end QString

variable {qt : QtText}

namespace WelcomeMessage

theorem toText_eq (m : WelcomeMessage) :
    m.toText = ['\n'].intercalate
      ["PACKAGELOSSUTILS".toList, "VERSION".toList, QString.number m.version.toNat,
        "ID".toList, QString.number m.uniqueId.toNat,
        "INTERVAL".toList, QString.number m.pingIntervalInMs.toNat] := by
  have hv : '%' ∉ QString.number m.version.toNat := QString.not_mem_number (by decide)
  have hi : '%' ∉ QString.number m.uniqueId.toNat := QString.not_mem_number (by decide)
  have h1 : QString.arg "PACKAGELOSSUTILS\nVERSION\n%1\nID\n%2\nINTERVAL\n%3".toList
      (QString.number m.version.toNat) = "PACKAGELOSSUTILS\nVERSION\n".toList ++
        (QString.number m.version.toNat ++ "\nID\n%2\nINTERVAL\n%3".toList) := rfl
  have h2 : QString.arg "\nID\n%2\nINTERVAL\n%3".toList (QString.number m.uniqueId.toNat) =
      "\nID\n".toList ++ (QString.number m.uniqueId.toNat ++ "\nINTERVAL\n%3".toList) := rfl
  have h3 : QString.arg "\nINTERVAL\n%3".toList (QString.number m.pingIntervalInMs.toNat) =
      "\nINTERVAL\n".toList ++ QString.number m.pingIntervalInMs.toNat := rfl
  rw [toText, h1, QString.arg_append (by decide), QString.arg_append hv, h2,
    QString.arg_append (by decide), QString.arg_append hv, QString.arg_append (by decide),
    QString.arg_append hi, h3]
  simp [List.intercalate, List.intersperse]

theorem fromData_toText (m : WelcomeMessage) (hm : m.version = protocolVersion) :
    fromData qt (QString.toUtf8 m.toText) = .ok m := by
  have hline : ∀ p ∈ ["PACKAGELOSSUTILS".toList, "VERSION".toList,
      QString.number m.version.toNat, "ID".toList, QString.number m.uniqueId.toNat,
      "INTERVAL".toList, QString.number m.pingIntervalInMs.toNat], QString.Line p := by
    have hhead : QString.Line "PACKAGELOSSUTILS".toList := by decide
    have hversion : QString.Line "VERSION".toList := by decide
    have hid : QString.Line "ID".toList := by decide
    have hinterval : QString.Line "INTERVAL".toList := by decide
    simp only [List.forall_mem_cons, QString.line_number, hhead, hversion, hid, hinterval,
      true_and]
    simp
  have hsplit := QString.splitOn_fromUtf8 qt hline (by simp)
  rw [fromData, toText_eq, hsplit]
  obtain ⟨version, uniqueId, interval⟩ := m
  subst hm
  simp only [List.length_cons, List.length_nil, List.getD_cons_succ, List.getD_cons_zero,
    qt.toUInt_number, qt.toULongLong_number, ne_eq, not_true_eq_false, if_false]

end WelcomeMessage

namespace CloseMessage

theorem toText_eq (m : CloseMessage) :
    m.toText = ['\n'].intercalate
      [QString.number m.uniqueId.toNat, QString.number m.reason.toNat] := by
  have hi : '%' ∉ QString.number m.uniqueId.toNat := QString.not_mem_number (by decide)
  have h1 : QString.arg "%1\n%2".toList (QString.number m.uniqueId.toNat) =
      QString.number m.uniqueId.toNat ++ "\n%2".toList := rfl
  have h2 : QString.arg "\n%2".toList (QString.number m.reason.toNat) =
      "\n".toList ++ QString.number m.reason.toNat := rfl
  rw [toText, h1, QString.arg_append hi, h2]
  simp [List.intercalate, List.intersperse]

theorem fromData_toText (m : CloseMessage) : fromData qt (QString.toUtf8 m.toText) = .ok m := by
  have hline : ∀ p ∈ [QString.number m.uniqueId.toNat, QString.number m.reason.toNat],
      QString.Line p := by
    simp [QString.line_number]
  have hsplit := QString.splitOn_fromUtf8 qt hline (by simp)
  rw [fromData, toText_eq, hsplit]
  simp only [List.length_cons, List.length_nil, List.getD_cons_succ, List.getD_cons_zero,
    qt.toUInt_number, qt.toULongLong_number, ne_eq, not_true_eq_false, if_false]

end CloseMessage

/-! ### Pings -/

namespace QDataStream

variable {rest : QByteArray}

theorem readNumber_encode {k n : ℕ} (hn : n < 256 ^ k) (rest : QByteArray) :
    readNumber k (BigEndian.encode k n ++ rest) = (n, rest) := by
  rw [readNumber, if_neg (by simp)]
  simp [BigEndian.decode_encode_of_lt hn]

theorem readUInt64_encode (n : UInt64) (rest : QByteArray) :
    readUInt64 (BigEndian.encode 8 n.toNat ++ rest) = (n, rest) := by
  rw [readUInt64, readNumber_encode n.toNat_lt]
  simp

theorem toInt32_emod {n : ℤ} (hlo : -2 ^ 31 ≤ n) (hhi : n < 2 ^ 31) :
    toInt32 (n % 2 ^ 32).toNat = n := by
  unfold toInt32
  split <;> omega

theorem readInt_writeInt {n : ℤ} (hlo : -2 ^ 31 ≤ n) (hhi : n < 2 ^ 31) (rest : QByteArray) :
    readInt (writeInt n ++ rest) = (n, rest) := by
  rw [readInt, writeInt, readNumber_encode (by omega), toInt32_emod hlo hhi]

theorem not_paddingSet_packBits (bits : QBitArray) :
    ¬ paddingSet bits.length (BigEndian.packBits bits) := by
  rintro ⟨hlen, hset⟩
  have hlast : (BigEndian.packBits bits).getLastD 0 =
      BigEndian.packByte bits (bits.length / 8) := by
    have hsize : (bits.length + 7) / 8 = bits.length / 8 + 1 := by omega
    rw [BigEndian.packBits, hsize, List.range_succ, List.map_append, List.map_singleton]
    simp [List.getLastD_eq_getLast?]
  apply hset
  rw [hlast]
  apply Nat.div_eq_of_lt
  apply Nat.lt_pow_two_of_testBit
  intro j hj
  rcases Nat.lt_or_ge j 8 with hj8 | hj8
  · rw [BigEndian.testBit_packByte bits _ hj8, List.getD_eq_getElem?_getD,
      List.getElem?_eq_none (by omega)]
    rfl
  · exact Nat.testBit_lt_two_pow ((UInt8.toNat_lt _).trans_le
      (Nat.pow_le_pow_right (by decide) hj8))

theorem readBitArray_writeBitArray {bits : QBitArray} (hlen : bits.length < 2 ^ 32)
    (rest : QByteArray) : readBitArray (writeBitArray bits ++ rest) = (bits, rest) := by
  have hnum := readNumber_encode (k := 4) (by omega : bits.length < 256 ^ 4)
    (BigEndian.packBits bits ++ rest)
  have htake : (BigEndian.packBits bits ++ rest).take ((bits.length + 7) / 8) =
      BigEndian.packBits bits := by
    rw [← BigEndian.length_packBits, List.take_left]
  have hdrop : (BigEndian.packBits bits ++ rest).drop ((bits.length + 7) / 8) = rest := by
    rw [← BigEndian.length_packBits, List.drop_left]
  rw [readBitArray, writeBitArray, List.append_assoc, hnum]
  simp only [htake, hdrop, if_neg (not_paddingSet_packBits bits), BigEndian.unpackBits_packBits]
  rw [if_neg (by simp)]

end QDataStream

namespace PingStats

/-- Values the encoding has room for. -/
structure Encodable (t : PingStats) : Prop where
  size : t.bitArray.length < 2 ^ 32
  position : -2 ^ 31 ≤ t.currentPosition ∧ t.currentPosition < 2 ^ 31
  stored : -2 ^ 31 ≤ t.storedBitCount ∧ t.storedBitCount < 2 ^ 31

theorem fromDataStream_toDataStream {t : PingStats} (ht : t.Encodable) (rest : QByteArray) :
    fromDataStream (t.toDataStream ++ rest) = (t, rest) := by
  simp only [fromDataStream, toDataStream, List.append_assoc,
    QDataStream.readBitArray_writeBitArray ht.size,
    QDataStream.readInt_writeInt ht.position.1 ht.position.2,
    QDataStream.readInt_writeInt ht.stored.1 ht.stored.2, QDataStream.readUInt64_encode]

theorem Represents.encodable {t : PingStats} {h : List Bool} (hr : Represents t h) :
    t.Encodable := by
  have hpos := hr.position
  have hstored := hr.stored
  have hsize := hr.size
  simp only [maxBitCount] at hpos hstored hsize
  refine ⟨by omega, ?_, by omega⟩
  split at hpos <;> omega

end PingStats

theorem PingMessage.fromData_payload {m : PingMessage} (hm : m.pingStats.Encodable) :
    fromData (BigEndian.encode 8 m.uniqueId.toNat ++ BigEndian.encode 8 m.counter.toNat ++
      m.pingStats.toDataStream) = m := by
  have hstats := PingStats.fromDataStream_toDataStream hm []
  rw [List.append_nil] at hstats
  simp only [fromData, List.append_assoc, QDataStream.readUInt64_encode, hstats]

/-! ### Dispatch -/

namespace Message

theorem extractMessageId_prependMessageId (data : QByteArray) (messageId : UInt32) :
    extractMessageId (prependMessageId data messageId) = .ok (data, messageId, true) := by
  have hid := BigEndian.decode_encode_of_lt (k := 4) messageId.toNat_lt
  simp [extractMessageId, prependMessageId, hid]

/-- The messages the constructors of the program build. -/
def Built : Message → Prop
  | welcome m => m.version = WelcomeMessage.protocolVersion
  | ping m => m.pingStats.Encodable
  | close _ => True

end Message

theorem NetworkCore.parseIncomingMessage_getData (qt : QtText) {m : Message} (hm : m.Built) :
    parseIncomingMessage qt m.getData = .ok (some m) := by
  cases m with
  | welcome m =>
    simp only [Message.getData, WelcomeMessage.toData, parseIncomingMessage,
      Message.extractMessageId_prependMessageId, WelcomeMessage.fromData_toText m hm]
    rfl
  | ping m =>
    simp only [Message.getData, PingMessage.toData, parseIncomingMessage,
      Message.extractMessageId_prependMessageId, PingMessage.fromData_payload hm]
    rfl
  | close m =>
    simp only [Message.getData, CloseMessage.toData, parseIncomingMessage,
      Message.extractMessageId_prependMessageId, CloseMessage.fromData_toText m]
    rfl

/-- Nothing but a ping is read as a ping. -/
theorem NetworkCore.parse_eq_ping {m : Message} {pingMessage : PingMessage}
    (h : parseIncomingMessage qt m.getData = .ok (some (.ping pingMessage))) :
    ∃ sent, m = .ping sent := by
  cases m with
  | ping m => exact ⟨m, rfl⟩
  | welcome m =>
    simp only [Message.getData, WelcomeMessage.toData, parseIncomingMessage,
      Message.extractMessageId_prependMessageId, Bool.not_true, Bool.false_eq_true, if_false,
      if_true] at h
    cases hm : WelcomeMessage.fromData qt (QString.toUtf8 m.toText) <;>
      simp [hm, Except.map] at h
  | close m =>
    simp only [Message.getData, CloseMessage.toData, parseIncomingMessage,
      Message.extractMessageId_prependMessageId, CloseMessage.fromData_toText m] at h
    simp [Except.map, CloseMessage.messageId, WelcomeMessage.messageId,
      PingMessage.messageId] at h

/-- Nothing but a Welcome is read as a Welcome. -/
theorem NetworkCore.parse_eq_welcome {m : Message} {welcomeMessage : WelcomeMessage}
    (h : parseIncomingMessage qt m.getData = .ok (some (.welcome welcomeMessage))) :
    ∃ sent, m = .welcome sent := by
  cases m with
  | welcome m => exact ⟨m, rfl⟩
  | ping m =>
    simp only [Message.getData, PingMessage.toData, parseIncomingMessage,
      Message.extractMessageId_prependMessageId] at h
    simp [PingMessage.messageId, WelcomeMessage.messageId] at h
  | close m =>
    simp only [Message.getData, CloseMessage.toData, parseIncomingMessage,
      Message.extractMessageId_prependMessageId, CloseMessage.fromData_toText m] at h
    simp [Except.map, CloseMessage.messageId, WelcomeMessage.messageId,
      PingMessage.messageId] at h

/-- Each of the three encodings is undone by the one decoder, at every value a message of the
program can carry. -/
theorem NetworkCore.parse_constructed (qt : QtText) :
    (∀ uniqueId pingIntervalInMs, ∃ m,
      parseIncomingMessage qt (WelcomeMessage.new uniqueId pingIntervalInMs).toData =
        .ok (some m) ∧
      m = .welcome (WelcomeMessage.new uniqueId pingIntervalInMs) ∧
      m.getData = (WelcomeMessage.new uniqueId pingIntervalInMs).toData) ∧
    (∀ uniqueId reason, ∃ m,
      parseIncomingMessage qt (CloseMessage.mk uniqueId reason).toData = .ok (some m) ∧
      m = .close ⟨uniqueId, reason⟩ ∧ m.getData = (CloseMessage.mk uniqueId reason).toData) ∧
    (∀ uniqueId counter calls, ∃ m,
      parseIncomingMessage qt (PingMessage.mk uniqueId counter (PingStats.replay calls)).toData =
        .ok (some m) ∧
      m = .ping ⟨uniqueId, counter, PingStats.replay calls⟩ ∧
      m.getData = (PingMessage.mk uniqueId counter (PingStats.replay calls)).toData) := by
  refine ⟨?_, ?_, ?_⟩
  · intro uniqueId pingIntervalInMs
    exact ⟨_, parseIncomingMessage_getData qt (m := .welcome (.new uniqueId pingIntervalInMs)) rfl,
      rfl, rfl⟩
  · intro uniqueId reason
    exact ⟨_, parseIncomingMessage_getData qt (m := .close ⟨uniqueId, reason⟩) trivial, rfl, rfl⟩
  · intro uniqueId counter calls
    exact ⟨_, parseIncomingMessage_getData qt
      (m := .ping ⟨uniqueId, counter, PingStats.replay calls⟩)
      (PingStats.represents_replay calls).encodable, rfl, rfl⟩

/-! ### An instance of the text handling -/

namespace QtText

theorem utf8EncodeChar_ascii {c : Char} (hc : c.toNat < 128) :
    String.utf8EncodeChar c = [UInt8.ofNat c.toNat] := by
  have hle : c.val.toNat ≤ 0x7f := by change c.toNat ≤ 0x7f; omega
  simp only [String.utf8EncodeChar, hle, if_true]
  rfl

def parseDecimal (bound : ℕ) (s : QString) : Option ℕ :=
  if s ≠ [] ∧ s.all Char.isDigit ∧ Nat.ofDigitChars 10 s 0 < bound then
    some (Nat.ofDigitChars 10 s 0)
  else none

theorem parseDecimal_number {n bound : ℕ} (hn : n < bound) :
    parseDecimal bound (QString.number n) = some n := by
  have hall : (QString.number n).all Char.isDigit := by
    simpa using fun c hc => QString.isDigit_of_mem_number hc
  rw [QString.number_natCast] at hall ⊢
  simp [parseDecimal, Nat.ofDigitChars_ten_toDigits, Nat.toDigits_ne_nil, hn, hall]

/-- Byte for byte decoding, and numerals made of digits only. -/
def ascii : QtText where
  fromUtf8 bytes := bytes.map fun b => Char.ofNat b.toNat
  toUInt s := (parseDecimal (2 ^ 32) s).map Nat.toUInt32
  toULongLong s := (parseDecimal (2 ^ 64) s).map Nat.toUInt64
  fromUtf8_toUtf8 := by
    intro s hs
    induction s with
    | nil => rfl
    | cons c s ih =>
      have hc := hs c (by simp)
      have ih := ih fun d hd => hs d (by simp [hd])
      rw [QString.toUtf8] at ih
      rw [QString.toUtf8, List.flatMap_cons, utf8EncodeChar_ascii hc.2, List.map_append, ih]
      simp [Nat.mod_eq_of_lt (by omega : c.toNat < 256)]
  toUInt_number n := by simp [parseDecimal_number n.toNat_lt]
  toULongLong_number n := by simp [parseDecimal_number n.toNat_lt]

end QtText

theorem NetworkCore.parse_constructed_ascii :
    parseIncomingMessage QtText.ascii (CloseMessage.mk 7 2).toData =
      .ok (some (.close ⟨7, 2⟩)) := by
  obtain ⟨m, hm, rfl, _⟩ := (NetworkCore.parse_constructed QtText.ascii).2.1 7 2
  exact hm

end PacketLossUtils
