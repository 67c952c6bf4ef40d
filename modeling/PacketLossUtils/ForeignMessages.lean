import PacketLossUtils.ClientRun

/-! Messages the client should not listen to: from other senders, or about other clients. -/
namespace PacketLossUtils.Client

open Effect

variable {Address : Type} {c : Client Address}

/-- A ping from the server leaves the client as it was only if it is dropped, and only if its
time is noted already. -/
theorem receivedPing_unchanged_iff (now : ℤ) (m : PingMessage) (c : Client Address) :
    (c.receivedPing now m).1 = c ↔
      c.messageCounterOtherNextExpected > m.counter ∧ c.timeOfLastMessageFromOther = now := by
  rw [receivedPing]
  split
  · rename_i hdropped
    constructor
    · intro hsame
      exact ⟨hdropped, (congrArg timeOfLastMessageFromOther hsame).symm⟩
    · rintro ⟨-, rfl⟩
      rfl
  · rename_i hseen
    refine iff_of_false ?_ (fun h => hseen h.1)
    intro hsame
    have hcount : (c.reception.markSeen m.counter).1.pingStats.packetsReceived =
        c.clientStats.packetsReceived := congrArg (fun c => c.clientStats.packetsReceived) hsame
    rw [Reception.packetsReceived_markSeen] at hcount
    simp [reception] at hcount

theorem receivedPing_sendsNothing (now : ℤ) (m : PingMessage) (c : Client Address) :
    ∀ x ∈ (c.receivedPing now m).2, x.datagram = none := by
  rw [receivedPing]
  split
  · simp
  · simp [datagram]

variable [HostAddress Address]

/-- The sender is the configured server. -/
def FromServer (address : Address) (port : UInt16) (c : Client Address) : Prop :=
  HostAddress.isEqual address c.serverHostAddress = true ∧ port = c.serverPort

instance (address : Address) (port : UInt16) (c : Client Address) :
    Decidable (FromServer address port c) :=
  inferInstanceAs (Decidable (_ ∧ _))

/-- A message from another sender or with another id changes nothing, and nothing is sent. -/
def IgnoresForeign (e : Event Address) (c : Client Address) : Prop :=
  ∀ now address port m, e = .message now address port m →
    ¬ FromServer address port c ∨ m.getUniqueId ≠ c.uniqueId →
      (c.step e).1 = c ∧ ∀ x ∈ (c.step e).2, x.datagram = none

/-- The server's ping for another client comes, and not as one that is dropped in the very
millisecond of the last message. -/
def HearsForeignPing (e : Event Address) (c : Client Address) : Prop :=
  ∃ now address port m, e = .message now address port (.ping m) ∧ FromServer address port c ∧
    m.uniqueId ≠ c.uniqueId ∧
      ¬ (c.messageCounterOtherNextExpected > m.counter ∧ c.timeOfLastMessageFromOther = now)

theorem receivedMessage_stranger {now : ℤ} {address : Address} {port : UInt16} {m : Message}
    (h : ¬ FromServer address port c) : c.receivedMessage now address port m = (c, []) := by
  rw [FromServer, Decidable.not_and_iff_or_not] at h
  rcases h with h | h <;> simp [receivedMessage, h]

/-- The siblings of the ping branch look at the id. -/
theorem receivedMessage_otherId {now : ℤ} {address : Address} {port : UInt16} {m : Message}
    (hkind : ∀ ping, m ≠ .ping ping) (hid : m.getUniqueId ≠ c.uniqueId) :
    c.receivedMessage now address port m = (c, []) := by
  cases m with
  | ping ping => exact absurd rfl (hkind ping)
  | welcome welcome =>
    simp only [receivedMessage]
    split <;> rfl
  | close close =>
    simp only [receivedMessage]
    split
    · rfl
    · exact if_pos hid

theorem ignoresForeign_iff (e : Event Address) (c : Client Address) :
    IgnoresForeign e c ↔ ¬ HearsForeignPing e c := by
  constructor
  · rintro hignores ⟨now, address, port, m, rfl, hserver, hid, hnoted⟩
    have hsame := (hignores now address port (.ping m) rfl (.inr hid)).1
    rw [step, receivedMessage_ping hserver.1 hserver.2, receivedPing_unchanged_iff] at hsame
    exact hnoted hsame
  · rintro hhears now address port m rfl hforeign
    rw [step]
    by_cases hserver : FromServer address port c
    · have hid := hforeign.resolve_left (not_not_intro hserver)
      by_cases hping : ∃ ping, m = .ping ping
      · obtain ⟨ping, rfl⟩ := hping
        rw [receivedMessage_ping hserver.1 hserver.2, receivedPing_unchanged_iff]
        refine ⟨?_, receivedPing_sendsNothing now ping c⟩
        by_contra hnoted
        exact hhears ⟨now, address, port, ping, rfl, hserver, hid, hnoted⟩
      · rw [receivedMessage_otherId (fun ping hm => hping ⟨ping, hm⟩) hid]
        exact ⟨rfl, by simp⟩
    · rw [receivedMessage_stranger hserver]
      exact ⟨rfl, by simp⟩

/-- In every state, and so along every run, it is the pings of the server for other clients that
the client fails to ignore, and nothing else. -/
theorem ignoresForeign_along_iff :
    (∀ (e : Event Address) (c : Client Address), IgnoresForeign e c ↔ ¬ HearsForeignPing e c) ∧
    (∀ (address : Address) (port : UInt16) (interval : UInt32) (uniqueId : UInt64)
        (events : List (Event Address)),
      Trace.Along step IgnoresForeign events (.new address port interval uniqueId) ↔
        Trace.Along step (fun e c => ¬ HearsForeignPing e c) events
          (.new address port interval uniqueId)) := by
  refine ⟨ignoresForeign_iff, ?_⟩
  intro address port interval uniqueId events
  apply Trace.along_congr
  intro e c _
  exact ignoresForeign_iff e c

/-- A client with id 7 has connected, and the server's first ping to client 8 comes. -/
theorem not_ignoresForeign_ping :
    ¬ ∀ events : List (Event ℕ), Trace.Along step IgnoresForeign events (.new 1 9 250 7) := by
  intro h
  obtain ⟨-, hping, -⟩ := h [.connect (fun _ => some 20) 100 100,
    .message 200 1 9 (.ping ⟨8, 0, .initialized⟩)]
  have hsame := (hping 200 1 9 (.ping ⟨8, 0, .initialized⟩) rfl (.inr (by decide))).1
  have hcount := congrArg (fun c => c.clientStats.packetsReceived) hsame
  revert hcount
  decide +kernel

end PacketLossUtils.Client
