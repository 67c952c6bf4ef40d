import PacketLossUtils.Client
import PacketLossUtils.MessageRoundTrip
import PacketLossUtils.Party

/-! Every step of the client, as one side of the exchange. -/
namespace PacketLossUtils.Client

open Effect

variable {Address : Type} {c : Client Address} {e : Event Address}

/-- The client as one side of the exchange. -/
def party (c : Client Address) : Party := ⟨c.messageCounter, c.reception⟩

/-- What no step of the client changes. -/
structure SameSetup (c c' : Client Address) : Prop where
  uniqueId : c'.uniqueId = c.uniqueId
  interval : c'.interval = c.interval
  serverHostAddress : c'.serverHostAddress = c.serverHostAddress
  serverPort : c'.serverPort = c.serverPort

theorem SameSetup.trans {c' c'' : Client Address} (h : SameSetup c c') (h' : SameSetup c' c'') :
    SameSetup c c'' :=
  ⟨h'.1.trans h.1, h'.2.trans h.2, h'.3.trans h.3, h'.4.trans h.4⟩

section PingTimer

variable {P : PingStats → Prop}

theorem pingRound_run (now : ℤ) (skipMessage : Bool) (hP : P c.otherStats) :
    Party.Run (fun _ payload => P payload) c.uniqueId c.party (pingRound now skipMessage c).2 []
      (pingRound now skipMessage c).1.party := by
  simp only [pingRound]
  split
  · exact (Party.Step.written c.messageCounter c.reception c.serverHostAddress c.serverPort hP).run
  · exact (Party.Step.skipped c.messageCounter c.reception hP).run

theorem pingRound_frame (now : ℤ) (skipMessage : Bool) (c : Client Address) :
    SameSetup c (pingRound now skipMessage c).1 ∧
      (pingRound now skipMessage c).1.otherStats = c.otherStats := by
  simp only [pingRound]
  split <;> exact ⟨⟨rfl, rfl, rfl, rfl⟩, rfl⟩

theorem pingRounds_frame (now : ℤ) (skipMessage : Bool) (rounds : List ℕ) (c : Client Address) :
    let out := Trace.run (fun _ => pingRound now skipMessage) rounds c
    SameSetup c out.1 ∧ out.1.otherStats = c.otherStats := by
  intro out
  apply Trace.run_invariant (I := fun c' _ => SameSetup c c' ∧ c'.otherStats = c.otherStats)
  · exact ⟨⟨rfl, rfl, rfl, rfl⟩, rfl⟩
  · rintro i - c' log ⟨hsetup, hother⟩
    obtain ⟨hsetup', hother'⟩ := pingRound_frame now skipMessage c'
    exact ⟨hsetup.trans hsetup', hother'.trans hother⟩

theorem pingRounds_run (now : ℤ) (skipMessage : Bool) (rounds : List ℕ) (hP : P c.otherStats) :
    let out := Trace.run (fun _ => pingRound now skipMessage) rounds c
    Party.Run (fun _ payload => P payload) c.uniqueId c.party out.2 [] out.1.party := by
  induction rounds generalizing c with
  | nil => exact .refl
  | cons i rounds ih =>
    obtain ⟨hsetup, hother⟩ := pingRound_frame now skipMessage c
    have hrun := ih (hother ▸ hP)
    rw [hsetup.uniqueId] at hrun
    exact (pingRound_run now skipMessage hP).trans hrun

theorem pingRounds_writes (now : ℤ) (skipMessage : Bool) (rounds : List ℕ)
    (hother : c.otherStats.Encodable) :
    ∀ m address port, .writeDatagram m address port ∈
      (Trace.run (fun (_ : ℕ) => pingRound now skipMessage) rounds c).2 →
        m.Built ∧ m.getUniqueId = c.uniqueId := by
  induction rounds generalizing c with
  | nil => simp
  | cons i rounds ih =>
    intro m address port hm
    obtain ⟨hsetup, hsame⟩ := pingRound_frame now skipMessage c
    rw [Trace.run_cons] at hm
    rcases List.mem_append.mp hm with hm | hm
    · simp only [pingRound, write] at hm
      split at hm
      · simp only [List.mem_cons, writeDatagram.injEq, reduceCtorEq, List.not_mem_nil,
          or_false] at hm
        rw [hm.1]
        exact ⟨hother, rfl⟩
      · simp at hm
    · have hrest := ih (hsame ▸ hother) m address port hm
      rwa [hsetup.uniqueId] at hrest

end PingTimer

theorem onTimeoutTimer_run (Carries : PingStats → PingStats → Prop) (now : ℤ)
    (c : Client Address) :
    Party.Run Carries c.uniqueId c.party (c.onTimeoutTimer now).2 []
      (c.onTimeoutTimer now).1.party := by
  rw [onTimeoutTimer]
  split
  · exact (Party.Step.lost c.messageCounter c.reception).run
  · exact .refl

theorem receivedPing_run (Carries : PingStats → PingStats → Prop) (now : ℤ) (m : PingMessage)
    (c : Client Address) :
    Party.Run Carries c.uniqueId c.party (c.receivedPing now m).2
      (if c.messageCounterOtherNextExpected > m.counter then [] else [m])
      (c.receivedPing now m).1.party := by
  rw [receivedPing]
  split
  · exact .refl
  · rename_i hseen
    exact (Party.Step.seen c.messageCounter c.reception hseen).run

variable [HostAddress Address]

/-- The ping that an event makes the client accept. -/
def accepted (e : Event Address) (c : Client Address) : List PingMessage :=
  match e with
  | .message _ address port (.ping m) =>
    if !HostAddress.isEqual address c.serverHostAddress || port != c.serverPort then []
    else if c.messageCounterOtherNextExpected > m.counter then []
    else [m]
  | _ => []

theorem accepted_of_ne (he : ∀ now address port m, e ≠ .message now address port m) :
    c.accepted e = [] := by
  cases e with
  | message now address port m => exact (he now address port m rfl).elim
  | _ => rfl

/-- Whoever is not the configured server is ignored. -/
theorem accepted_of_stranger {now : ℤ} {address : Address} {port : UInt16} {m : Message}
    (h : HostAddress.isEqual address c.serverHostAddress = false ∨ port ≠ c.serverPort) :
    c.accepted (.message now address port m) = [] := by
  cases m with
  | ping m =>
    rw [accepted, if_pos]
    rcases h with h | h <;> simp [h]
  | welcome => rfl
  | close => rfl

/-- A ping from the configured server. -/
theorem receivedMessage_ping {now : ℤ} {address : Address} {port : UInt16} {m : PingMessage}
    (hsender : HostAddress.isEqual address c.serverHostAddress = true)
    (hport : port = c.serverPort) :
    c.receivedMessage now address port (.ping m) = c.receivedPing now m := by
  simp [receivedMessage, hsender, hport]

theorem step_run {P : PingStats → Prop} (e : Event Address) (hP : P c.otherStats) :
    Party.Run (fun _ payload => P payload) c.uniqueId c.party (c.step e).2 (c.accepted e)
      (c.step e).1.party := by
  cases e with
  | connect pending now now' =>
    simp only [step, connect]
    split <;> [skip; split]
    · exact .refl
    · exact Party.Run.quiet (List.forall_mem_singleton.mpr ⟨rfl, rfl⟩)
    · exact Party.Run.quiet (List.forall_mem_singleton.mpr ⟨rfl, rfl⟩)
  | pingTimer now => exact pingRounds_run now _ _ hP
  | timeoutTimer now => exact onTimeoutTimer_run _ now c
  | sigInt =>
    simp only [step, onSigIntReceived]
    split
    · exact Party.Run.quiet (List.forall_mem_singleton.mpr ⟨rfl, rfl⟩)
    · exact .refl
  | message now address port m =>
    simp only [step, receivedMessage]
    cases m with
    | ping m =>
      simp only [accepted]
      split
      · exact .refl
      · exact receivedPing_run _ now m c
    | close m =>
      dsimp only [accepted]
      split <;> [skip; split] <;> exact .refl
    | welcome m =>
      dsimp only [accepted]
      split <;> exact .refl

/-- Every call on the reception is recorded, and nothing else changes it. -/
theorem step_reception (e : Event Address) (c : Client Address) :
    (c.step e).1.reception = c.reception.after (calls c.uniqueId (c.step e).2) :=
  (step_run (P := fun _ => True) e trivial).reception

theorem step_setup (e : Event Address) (c : Client Address) : SameSetup c (c.step e).1 := by
  cases e with
  | connect pending now now' =>
    simp only [step, connect]
    split <;> [skip; split] <;> exact ⟨rfl, rfl, rfl, rfl⟩
  | pingTimer now => exact (pingRounds_frame now _ _ c).1
  | timeoutTimer now =>
    simp only [step, onTimeoutTimer]
    split <;> exact ⟨rfl, rfl, rfl, rfl⟩
  | sigInt =>
    simp only [step, onSigIntReceived]
    split <;> exact ⟨rfl, rfl, rfl, rfl⟩
  | message now address port m =>
    simp only [step, receivedMessage]
    split
    · exact ⟨rfl, rfl, rfl, rfl⟩
    cases m with
    | ping m =>
      simp only [receivedPing]
      split <;> exact ⟨rfl, rfl, rfl, rfl⟩
    | close m =>
      dsimp only
      split <;> exact ⟨rfl, rfl, rfl, rfl⟩
    | welcome m => exact ⟨rfl, rfl, rfl, rfl⟩

theorem run_reception (events : List (Event Address)) (c : Client Address) :
    (Trace.run step events c).1.reception =
      c.reception.after (calls c.uniqueId (Trace.run step events c).2) := by
  induction events generalizing c with
  | nil => exact (Reception.after_nil _).symm
  | cons e events ih =>
    rw [Trace.run_cons, ih, step_reception, (step_setup e c).uniqueId, calls_append,
      Reception.after_append]

/-- The server's statistics are taken over from an accepted ping and from nothing else. -/
theorem step_otherStats (e : Event Address) (c : Client Address) :
    (c.accepted e = [] ∧ (c.step e).1.otherStats = c.otherStats) ∨
      ∃ now address port m, e = .message now address port (.ping m) ∧
        c.accepted e = [m] ∧ (c.step e).1.otherStats = m.pingStats := by
  cases e with
  | connect pending now now' =>
    simp only [step, connect]
    split <;> [skip; split] <;> exact .inl ⟨rfl, rfl⟩
  | pingTimer now => exact .inl ⟨rfl, (pingRounds_frame now _ _ c).2⟩
  | timeoutTimer now =>
    simp only [step, onTimeoutTimer]
    split <;> exact .inl ⟨rfl, rfl⟩
  | sigInt =>
    simp only [step, onSigIntReceived]
    split <;> exact .inl ⟨rfl, rfl⟩
  | message now address port m =>
    simp only [step, receivedMessage]
    cases m with
    | ping m =>
      simp only [accepted, receivedPing]
      split <;> [skip; split]
      · exact .inl ⟨rfl, rfl⟩
      · exact .inl ⟨rfl, rfl⟩
      · exact .inr ⟨now, address, port, m, rfl, rfl, rfl⟩
    | close m =>
      dsimp only
      split <;> [skip; split] <;> exact .inl ⟨rfl, rfl⟩
    | welcome m =>
      dsimp only
      split <;> exact .inl ⟨rfl, rfl⟩

/-- What the client writes is a message of the program under its own id, to its server. -/
theorem step_writes (e : Event Address) (hother : c.otherStats.Encodable) :
    ∀ m address port, .writeDatagram m address port ∈ (c.step e).2 →
      m.Built ∧ m.getUniqueId = c.uniqueId := by
  have hclose : ∀ m address port, .writeDatagram m address port ∈
      [c.write (.close ⟨c.uniqueId, CloseMessage.reasonQuit⟩)] →
        m.Built ∧ m.getUniqueId = c.uniqueId := by
    intro m address port hm
    cases List.mem_singleton.mp hm
    exact ⟨trivial, rfl⟩
  have hwelcome : ∀ m address port, .writeDatagram m address port ∈
      [c.write (.welcome (.new c.uniqueId c.interval))] →
        m.Built ∧ m.getUniqueId = c.uniqueId := by
    intro m address port hm
    cases List.mem_singleton.mp hm
    exact ⟨rfl, rfl⟩
  cases e with
  | connect pending now now' =>
    simp only [step, connect]
    split <;> [skip; split]
    · simp
    · exact hwelcome
    · exact hwelcome
  | pingTimer now => exact pingRounds_writes now _ _ hother
  | timeoutTimer now =>
    simp only [step, onTimeoutTimer]
    split <;> simp
  | sigInt =>
    simp only [step, onSigIntReceived]
    split
    · exact hclose
    · simp
  | message now address port m =>
    simp only [step, receivedMessage]
    split
    · simp
    cases m with
    | ping m =>
      simp only [receivedPing]
      split <;> simp
    | close m =>
      dsimp only
      split <;> simp
    | welcome m => simp

end PacketLossUtils.Client
