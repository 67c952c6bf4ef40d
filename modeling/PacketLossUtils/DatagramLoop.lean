import PacketLossUtils.MessageRoundTrip
import PacketLossUtils.Server

/-! Which queues of datagrams the loop drains. -/
namespace PacketLossUtils.NetworkCore

variable {qt : QtText} {data : QByteArray}

/-- The text of a Welcome: seven lines, the third the version, the fifth and the last numerals. -/
def WelcomeText (qt : QtText) (text : QString) : Prop :=
  (text.splitOn '\n').length = 7 ∧
    qt.toUInt ((text.splitOn '\n').getD 2 []) = some WelcomeMessage.protocolVersion ∧
    (qt.toULongLong ((text.splitOn '\n').getD 4 [])).isSome ∧
    (qt.toUInt ((text.splitOn '\n').getD 6 [])).isSome

/-- The text of a Close: two lines, both numerals. -/
def CloseText (qt : QtText) (text : QString) : Prop :=
  (text.splitOn '\n').length = 2 ∧ (qt.toULongLong ((text.splitOn '\n').getD 0 [])).isSome ∧
    (qt.toUInt ((text.splitOn '\n').getD 1 [])).isSome

/-- The id in the first four bytes. -/
def leadingId (data : QByteArray) : UInt32 := (BigEndian.decode (data.take 4)).toUInt32

/-- Some bytes, but too few for an id, or a text message whose text is not one. -/
def Malformed (qt : QtText) (data : QByteArray) : Prop :=
  data.length ≠ 0 ∧ (data.length < 4 ∨
    leadingId data = WelcomeMessage.messageId ∧ ¬ WelcomeText qt (qt.fromUtf8 (data.drop 4)) ∨
    leadingId data = CloseMessage.messageId ∧ ¬ CloseText qt (qt.fromUtf8 (data.drop 4)))

theorem welcome_fromData_eq_error_iff :
    (∃ e, WelcomeMessage.fromData qt data = .error e) ↔
      ¬ WelcomeText qt (qt.fromUtf8 data) := by
  rw [WelcomeMessage.fromData, WelcomeText]
  generalize List.splitOn '\n' (qt.fromUtf8 data) = parts
  generalize parts.getD 2 [] = version
  generalize parts.getD 4 [] = id
  generalize parts.getD 6 [] = interval
  by_cases hlen : parts.length = 7
  · by_cases hversion : qt.toUInt version = some WelcomeMessage.protocolVersion
    · cases hid : qt.toULongLong id with
      | none => simp [hlen, hversion]
      | some uniqueId => cases hinterval : qt.toUInt interval <;> simp [hlen, hversion]
    · simp [hlen, hversion]
  · simp [hlen]

theorem close_fromData_eq_error_iff :
    (∃ e, CloseMessage.fromData qt data = .error e) ↔ ¬ CloseText qt (qt.fromUtf8 data) := by
  rw [CloseMessage.fromData, CloseText]
  generalize List.splitOn '\n' (qt.fromUtf8 data) = parts
  generalize parts.getD 0 [] = id
  generalize parts.getD 1 [] = reason
  by_cases hlen : parts.length = 2
  · cases hid : qt.toULongLong id with
    | none => simp [hlen]
    | some uniqueId => cases hreason : qt.toUInt reason <;> simp [hlen]
  · simp [hlen]

theorem map_eq_error_iff {ε α β : Type} {f : α → β} {x : Except ε α} :
    (∃ e, x.map f = .error e) ↔ ∃ e, x = .error e := by
  cases x <;> simp [Except.map]

/-- Parsing throws at the malformed datagrams and at no others. -/
theorem parse_eq_error_iff (hne : data.length ≠ 0) :
    (∃ e, parseIncomingMessage qt data = .error e) ↔ Malformed qt data := by
  have hids : WelcomeMessage.messageId ≠ CloseMessage.messageId := by decide
  have hids' : CloseMessage.messageId ≠ PingMessage.messageId := by decide
  rw [parseIncomingMessage, Malformed, Message.extractMessageId]
  by_cases hlen : data.length < 4
  · simp [hlen, hne]
  · simp only [hlen, hne, if_false, Bool.not_true, Bool.false_eq_true, false_or, ne_eq,
      not_false_eq_true, true_and]
    rw [← leadingId]
    by_cases hwelcome : leadingId data = WelcomeMessage.messageId
    · simp only [hwelcome, if_true, true_and, hids, false_and, or_false]
      rw [map_eq_error_iff, welcome_fromData_eq_error_iff]
    by_cases hclose : leadingId data = CloseMessage.messageId
    · simp only [hclose, hids.symm, hids', if_false, if_true, true_and, false_and, false_or]
      rw [map_eq_error_iff, close_fromData_eq_error_iff]
    · simp only [hwelcome, hclose, if_false, false_and, or_false]
      split <;> simp

/-! ### The loop -/

variable {Address σ τ ε : Type} {receivedMessage : τ → Address → UInt16 → Message → σ → σ × List ε}

/-- The messages of the datagrams that decode, in the order of arrival. -/
def decoded (qt : QtText) (pending : List (Datagram Address × τ)) :
    List (τ × Address × UInt16 × Message) :=
  pending.filterMap fun (datagram, readings) =>
    match parseIncomingMessage qt datagram.data with
    | .ok (some message) => some (readings, datagram.senderAddress, datagram.senderPort, message)
    | _ => none

/-- The loop returns normally with the queue empty, and has done what handling the datagrams
that decode would do. -/
def DropsUndecoded (qt : QtText)
    (receivedMessage : τ → Address → UInt16 → Message → σ → σ × List ε)
    (pending : List (Datagram Address × τ)) (s : σ) : Prop :=
  let out := readPendingDatagrams qt receivedMessage pending s
  let handled := Trace.run
    (fun (i : τ × Address × UInt16 × Message) => receivedMessage i.1 i.2.1 i.2.2.1 i.2.2.2)
    (decoded qt pending) s
  out.thrown = none ∧ out.pending = [] ∧ out.state = handled.1 ∧ out.effects = handled.2

theorem parse_empty (qt : QtText) (hempty : data.length = 0) :
    ∃ e, parseIncomingMessage qt data = .error e := by
  simp [parseIncomingMessage, Message.extractMessageId, hempty]

/-- The loop drains exactly the queues without a malformed datagram. -/
theorem dropsUndecoded_iff (qt : QtText)
    (receivedMessage : τ → Address → UInt16 → Message → σ → σ × List ε)
    (pending : List (Datagram Address × τ)) (s : σ) :
    DropsUndecoded qt receivedMessage pending s ↔
      ∀ entry ∈ pending, ¬ Malformed qt entry.1.data := by
  induction pending generalizing s with
  | nil => simp [DropsUndecoded, readPendingDatagrams, decoded]
  | cons entry pending ih =>
    obtain ⟨datagram, readings⟩ := entry
    rw [List.forall_mem_cons]
    by_cases hempty : datagram.data.length = 0
    · obtain ⟨e, he⟩ := parse_empty qt hempty
      have hskip : DropsUndecoded qt receivedMessage ((datagram, readings) :: pending) s ↔
          DropsUndecoded qt receivedMessage pending s := by
        simp [DropsUndecoded, readPendingDatagrams, decoded, hempty, he]
      rw [hskip, ih]
      simp [Malformed, hempty]
    have herror : (∃ e, parseIncomingMessage qt datagram.data = .error e) ↔
        Malformed qt datagram.data := parse_eq_error_iff hempty
    cases hparse : parseIncomingMessage qt datagram.data with
    | error e =>
      have hmalformed := herror.mp ⟨e, hparse⟩
      simp [DropsUndecoded, readPendingDatagrams, hempty, hparse, hmalformed]
    | ok parsed =>
      have hfine : ¬ Malformed qt datagram.data := by
        rw [← herror, hparse]
        simp
      cases parsed with
      | none =>
        have hskip : DropsUndecoded qt receivedMessage ((datagram, readings) :: pending) s ↔
            DropsUndecoded qt receivedMessage pending s := by
          simp [DropsUndecoded, readPendingDatagrams, decoded, hempty, hparse]
        rw [hskip, ih]
        simp [hfine]
      | some message =>
        have hhandle : DropsUndecoded qt receivedMessage ((datagram, readings) :: pending) s ↔
            DropsUndecoded qt receivedMessage pending (receivedMessage readings
              datagram.senderAddress datagram.senderPort message s).1 := by
          simp [DropsUndecoded, readPendingDatagrams, decoded, hempty, hparse, Trace.run_cons]
        rw [hhandle, ih]
        simp [hfine]

/-- Three bytes from anywhere, and the Welcome behind them is not read. -/
theorem not_dropsUndecoded_short :
    ¬ DropsUndecoded .ascii
      (fun (now : ℤ × ℤ) => (Server.receivedMessage now.1 now.2 : ℕ → _))
      [(⟨[0, 0, 0], 5, 5000⟩, (0, 0)),
        (⟨(WelcomeMessage.new 7 250).toData, 2, 5000⟩, (0, 0))] .new := by
  intro h
  have hthrown := h.1
  simp [readPendingDatagrams, parseIncomingMessage, Message.extractMessageId] at hthrown

end PacketLossUtils.NetworkCore
