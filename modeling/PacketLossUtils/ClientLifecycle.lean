import PacketLossUtils.ClientRun

/-! The connections of the client, from its construction to its destruction. -/
namespace PacketLossUtils.Client

open Effect Trace

variable {Address : Type} {c : Client Address}

/-! ### The timers -/

/-- The three timers run while the client is connected, and at no other time. -/
structure TimersFollow (c : Client Address) : Prop where
  timerPingActive : c.timerPingActive = c.isConnected
  timerTimeoutActive : c.timerTimeoutActive = c.isConnected
  timerStatsActive : c.timerStatsActive = c.isConnected

/-- A timer fires only while it runs. -/
def Fires (e : Event Address) (c : Client Address) : Prop :=
  match e with
  | .pingTimer _ => c.timerPingActive = true
  | .timeoutTimer _ => c.timerTimeoutActive = true
  | _ => True

instance : DecidableRel (Fires : Event Address → Client Address → Prop)
  | .connect _ _ _, _ => .isTrue trivial
  | .pingTimer _, c => inferInstanceAs (Decidable (c.timerPingActive = true))
  | .timeoutTimer _, c => inferInstanceAs (Decidable (c.timerTimeoutActive = true))
  | .sigInt, _ => .isTrue trivial
  | .message _ _ _ _, _ => .isTrue trivial

/-- The connection and the timers are left alone. -/
structure SameTimers (c c' : Client Address) : Prop where
  isConnected : c'.isConnected = c.isConnected
  timerPingActive : c'.timerPingActive = c.timerPingActive
  timerTimeoutActive : c'.timerTimeoutActive = c.timerTimeoutActive
  timerStatsActive : c'.timerStatsActive = c.timerStatsActive

theorem TimersFollow.of_same {c' : Client Address} (h : TimersFollow c) (hsame : SameTimers c c') :
    TimersFollow c' where
  timerPingActive := by rw [hsame.timerPingActive, hsame.isConnected, h.timerPingActive]
  timerTimeoutActive := by rw [hsame.timerTimeoutActive, hsame.isConnected, h.timerTimeoutActive]
  timerStatsActive := by rw [hsame.timerStatsActive, hsame.isConnected, h.timerStatsActive]

theorem onPingTimer_sameTimers (now : ℤ) (c : Client Address) :
    SameTimers c (c.onPingTimer now).1 := by
  apply run_invariant (I := fun c' _ => SameTimers c c') ⟨rfl, rfl, rfl, rfl⟩
  rintro i - c' - h
  simp only [pingRound]
  split <;> exact ⟨h.1, h.2, h.3, h.4⟩

theorem onTimeoutTimer_sameTimers (now : ℤ) (c : Client Address) :
    SameTimers c (c.onTimeoutTimer now).1 := by
  rw [onTimeoutTimer]
  split <;> exact ⟨rfl, rfl, rfl, rfl⟩

theorem receivedPing_sameTimers (now : ℤ) (m : PingMessage) (c : Client Address) :
    SameTimers c (c.receivedPing now m).1 := by
  rw [receivedPing]
  split <;> exact ⟨rfl, rfl, rfl, rfl⟩

/-- What a call of `connect()` comes to. -/
theorem connect_cases (pending : ℕ → Option ℕ) (now now' : ℤ) (c : Client Address) :
    c.isConnected = true ∧ c.connect pending now now' = ((c, []), false) ∨
      c.isConnected = false ∧ c.connect pending now now' =
        ((c, [c.write (.welcome (.new c.uniqueId c.interval))]), false) ∨
      c.isConnected = false ∧ c.connect pending now now' =
        (({ c with
            timeOfLastMessageFromOther := now
            timerPingActive := true
            nextPingTime := now' + c.interval.toNat
            timerTimeoutActive := true
            timerStatsActive := true
            isConnected := true }, [c.write (.welcome (.new c.uniqueId c.interval))]), true) := by
  cases hconnected : c.isConnected with
  | true => simp [connect, hconnected]
  | false =>
    cases hreply : (List.range 10).any fun i => decide ((pending i).getD 0 > 0) with
    | true =>
      right; right
      simp only [connect, hconnected, hreply]
      exact ⟨trivial, rfl⟩
    | false =>
      right; left
      simp only [connect, hconnected, hreply]
      exact ⟨trivial, rfl⟩

/-! ### Marks -/

/-- What a run shows of the connections: what the client writes or skips, that it becomes connected,
and that it stops to be, with the event in which it does (none is the destructor). -/
inductive Mark (Address : Type)
  | sent (message : Message) (address : Address) (port : UInt16)
  | skipped (message : PingMessage)
  | connected
  | ended (e : Option (Event Address))

def Mark.ofEffect : Effect Address → Option (Mark Address)
  | .writeDatagram message address port => some (.sent message address port)
  | .skipPing message => some (.skipped message)
  | .pingStats _ _ => none

variable [HostAddress Address]

/-- The marks one event leaves. -/
def marks (e : Event Address) (c : Client Address) : List (Mark Address) :=
  (c.step e).2.filterMap Mark.ofEffect ++
    (if c.isConnected = false ∧ (c.step e).1.isConnected = true then [.connected] else []) ++
    (if c.isConnected = true ∧ (c.step e).1.isConnected = false then [.ended (some e)] else [])

/-- The marks of a run that handles the events and then destroys the client. -/
def history : List (Event Address) → Client Address → List (Mark Address)
  | [], c => c.destruct.filterMap Mark.ofEffect ++ if c.isConnected then [.ended none] else []
  | e :: events, c => marks e c ++ history events (c.step e).1

/-- The marks of a client that is connected or is not, and that numbers its next ping as given:
attempts to connect, one of which may succeed, and then pings, numbered one after the other also
across connections. A connection ends with the one Close of the client, or with a Close of its
server and none of its own. -/
inductive Connections (server : Address) (port : UInt16) (uniqueId : UInt64) (interval : UInt32) :
    Bool → UInt64 → List (Mark Address) → Prop
  | done (n : UInt64) : Connections server port uniqueId interval false n []
  | failed {n : UInt64} {rest : List (Mark Address)}
      (h : Connections server port uniqueId interval false n rest) :
      Connections server port uniqueId interval false n
        (.sent (.welcome (.new uniqueId interval)) server port :: rest)
  | connected {n : UInt64} {rest : List (Mark Address)}
      (h : Connections server port uniqueId interval true n rest) :
      Connections server port uniqueId interval false n
        (.sent (.welcome (.new uniqueId interval)) server port :: .connected :: rest)
  | ping {n : UInt64} (pingStats : PingStats) {rest : List (Mark Address)}
      (h : Connections server port uniqueId interval true (n + 1) rest) :
      Connections server port uniqueId interval true n
        (.sent (.ping ⟨uniqueId, n, pingStats⟩) server port :: rest)
  | skipped {n : UInt64} (pingStats : PingStats) {rest : List (Mark Address)}
      (h : Connections server port uniqueId interval true (n + 1) rest) :
      Connections server port uniqueId interval true n
        (.skipped ⟨uniqueId, n, pingStats⟩ :: rest)
  | closed {n : UInt64} (now : ℤ) {sender : Address} (reason : UInt32)
      (hsender : HostAddress.isEqual sender server = true) {rest : List (Mark Address)}
      (h : Connections server port uniqueId interval false n rest) :
      Connections server port uniqueId interval true n
        (.ended (some (.message now sender port (.close ⟨uniqueId, reason⟩))) :: rest)
  | interrupted {n : UInt64} {rest : List (Mark Address)}
      (h : Connections server port uniqueId interval false n rest) :
      Connections server port uniqueId interval true n
        (.sent (.close ⟨uniqueId, CloseMessage.reasonQuit⟩) server port ::
          .ended (some .sigInt) :: rest)
  | destroyed {n : UInt64} :
      Connections server port uniqueId interval true n
        [.sent (.close ⟨uniqueId, CloseMessage.reasonQuit⟩) server port, .ended none]

/-- The connections of this client from now on. -/
def Connects (c : Client Address) (rest : List (Mark Address)) : Prop :=
  Connections c.serverHostAddress c.serverPort c.uniqueId c.interval c.isConnected
    c.messageCounter rest

variable {e : Event Address} {events : List (Event Address)} {rest : List (Mark Address)}

/-! ### The events -/

theorem timersFollow_step (h : TimersFollow c) (e : Event Address) : TimersFollow (c.step e).1 := by
  cases e with
  | connect pending now now' =>
    simp only [step, connect]
    split
    · exact h
    · split
      · exact h
      · exact ⟨rfl, rfl, rfl⟩
  | pingTimer now => exact h.of_same (onPingTimer_sameTimers now c)
  | timeoutTimer now => exact h.of_same (onTimeoutTimer_sameTimers now c)
  | sigInt =>
    simp only [step, onSigIntReceived]
    split
    · exact ⟨rfl, rfl, rfl⟩
    · exact h
  | message now address port m =>
    simp only [step, receivedMessage]
    split
    · exact h
    · cases m with
      | ping m => exact h.of_same (receivedPing_sameTimers now m c)
      | close m =>
        dsimp only
        split
        · exact h
        · exact ⟨rfl, rfl, rfl⟩
      | welcome m => exact h

/-- An event that leaves the connection and writes and skips nothing. -/
theorem connects_quiet (hsame : (c.step e).1.isConnected = c.isConnected)
    (hcounter : (c.step e).1.messageCounter = c.messageCounter)
    (hquiet : ∀ x ∈ (c.step e).2, Mark.ofEffect x = none) (h : Connects (c.step e).1 rest) :
    Connects c (marks e c ++ rest) := by
  obtain ⟨huniqueId, hinterval, hserver, hport⟩ := step_setup e c
  have hmarks : marks e c = [] := by
    rw [marks, hsame, List.filterMap_eq_nil_iff.mpr hquiet]
    cases c.isConnected <;> rfl
  rw [Connects, huniqueId, hinterval, hserver, hport, hsame, hcounter] at h
  rw [hmarks]
  exact h

theorem connects_connect (pending : ℕ → Option ℕ) (now now' : ℤ)
    (h : Connects (c.step (.connect pending now now')).1 rest) :
    Connects c (marks (.connect pending now now') c ++ rest) := by
  have hstep : c.step (.connect pending now now') = (c.connect pending now now').1 := rfl
  rcases connect_cases pending now now' c with ⟨_, hout⟩ | ⟨hidle, hout⟩ | ⟨hidle, hout⟩
  · refine connects_quiet ?_ ?_ ?_ h <;> rw [hstep, hout]
    simp
  · rw [hstep, hout, Connects, hidle] at h
    rw [marks, hstep, hout, Connects, hidle]
    exact h.failed
  · rw [hstep, hout] at h
    rw [marks, hstep, hout, Connects, hidle]
    exact Connections.connected h

/-- The pings of one firing. -/
theorem connects_pingRounds (now : ℤ) (skipMessage : Bool) (rounds : List ℕ)
    (hconnected : c.isConnected = true)
    (h : Connects (run (fun _ => pingRound now skipMessage) rounds c).1 rest) :
    Connects c ((run (fun _ => pingRound now skipMessage) rounds c).2.filterMap Mark.ofEffect ++
      rest) := by
  induction rounds generalizing c with
  | nil => exact h
  | cons i rounds ih =>
    rw [run_cons] at h ⊢
    cases skipMessage with
    | true =>
      have hrest := ih (c := (pingRound now true c).1) hconnected h
      rw [Connects] at hrest ⊢
      rw [List.filterMap_append, List.append_assoc, hconnected]
      rw [show (pingRound now true c).1.isConnected = true from hconnected] at hrest
      exact .skipped c.otherStats hrest
    | false =>
      have hrest := ih (c := (pingRound now false c).1) hconnected h
      rw [Connects] at hrest ⊢
      rw [List.filterMap_append, List.append_assoc, hconnected]
      rw [show (pingRound now false c).1.isConnected = true from hconnected] at hrest
      exact .ping c.otherStats hrest

theorem connects_pingTimer (now : ℤ) (hconnected : c.isConnected = true)
    (h : Connects (c.step (.pingTimer now)).1 rest) :
    Connects c (marks (.pingTimer now) c ++ rest) := by
  have hsame := (onPingTimer_sameTimers now c).isConnected
  have hmarks : marks (.pingTimer now) c = (c.onPingTimer now).2.filterMap Mark.ofEffect := by
    rw [marks, step, hsame, hconnected]
    simp
  rw [hmarks]
  exact connects_pingRounds now _ _ hconnected h

theorem connects_sigInt (h : Connects (c.step .sigInt).1 rest) :
    Connects c (marks .sigInt c ++ rest) := by
  cases hconnected : c.isConnected with
  | true =>
    have hstep : c.step .sigInt = ({ c with isConnected := false }.stopTimers,
        [c.write (.close ⟨c.uniqueId, CloseMessage.reasonQuit⟩)]) := by
      rw [step, onSigIntReceived, if_pos hconnected]
    rw [hstep] at h
    rw [marks, hstep, Connects, hconnected]
    exact Connections.interrupted h
  | false =>
    have hstep : c.step .sigInt = (c, []) := by
      simp [step, onSigIntReceived, hconnected]
    refine connects_quiet ?_ ?_ ?_ h <;> rw [hstep]
    simp

/-- A Close of the server, if it is for this client, ends the connection. -/
theorem connects_close (now : ℤ) {address : Address} {port : UInt16} (m : CloseMessage)
    (hserver : ¬ (!HostAddress.isEqual address c.serverHostAddress || port != c.serverPort) = true)
    (hid : m.uniqueId = c.uniqueId)
    (h : Connects (c.step (.message now address port (.close m))).1 rest) :
    Connects c (marks (.message now address port (.close m)) c ++ rest) := by
  have hstep : c.step (.message now address port (.close m)) =
      ({ c with isConnected := false }.stopTimers, []) := by
    simp only [step, receivedMessage]
    rw [if_neg hserver, if_neg (not_not.mpr hid)]
  cases hconnected : c.isConnected with
  | true =>
    obtain ⟨hsender, rfl⟩ : HostAddress.isEqual address c.serverHostAddress = true ∧
        port = c.serverPort := by simpa using hserver
    obtain ⟨_, reason⟩ := m
    obtain rfl : _ = c.uniqueId := hid
    rw [hstep] at h
    rw [marks, hstep, Connects, hconnected]
    exact Connections.closed now reason hsender h
  | false =>
    refine connects_quiet ?_ ?_ ?_ h <;> rw [hstep]
    · exact hconnected.symm
    · rfl
    · simp

theorem connects_message (now : ℤ) (address : Address) (port : UInt16) (m : Message)
    (h : Connects (c.step (.message now address port m)).1 rest) :
    Connects c (marks (.message now address port m) c ++ rest) := by
  have hignored : c.step (.message now address port m) = (c, []) →
      Connects c (marks (.message now address port m) c ++ rest) := by
    intro hstep
    refine connects_quiet ?_ ?_ ?_ h <;> rw [hstep]
    simp
  by_cases hstranger : !HostAddress.isEqual address c.serverHostAddress || port != c.serverPort
  · apply hignored
    simp only [step, receivedMessage]
    rw [if_pos hstranger]
  cases m with
  | ping m =>
    have hstep : c.step (.message now address port (.ping m)) = c.receivedPing now m := by
      simp only [step, receivedMessage]
      rw [if_neg hstranger]
    refine connects_quiet ?_ ?_ ?_ h <;> rw [hstep]
    · exact (receivedPing_sameTimers now m c).isConnected
    · rw [receivedPing]
      split <;> rfl
    · rw [receivedPing]
      split
      · simp
      · intro x hx
        obtain ⟨call, -, rfl⟩ := List.mem_map.mp hx
        rfl
  | close m =>
    by_cases hid : m.uniqueId = c.uniqueId
    · exact connects_close now m hstranger hid h
    · apply hignored
      simp only [step, receivedMessage]
      rw [if_neg hstranger, if_pos hid]
  | welcome m =>
    apply hignored
    simp only [step, receivedMessage]
    rw [if_neg hstranger]

theorem connects_step (hfollow : TimersFollow c) (hfires : Fires e c)
    (h : Connects (c.step e).1 rest) : Connects c (marks e c ++ rest) := by
  cases e with
  | connect pending now now' => exact connects_connect pending now now' h
  | pingTimer now =>
    exact connects_pingTimer now (hfollow.timerPingActive.symm.trans hfires) h
  | timeoutTimer now =>
    refine connects_quiet (onTimeoutTimer_sameTimers now c).isConnected ?_ ?_ h
    · simp only [step, onTimeoutTimer]
      split <;> rfl
    · intro x hx
      simp only [step, onTimeoutTimer] at hx
      split at hx
      · obtain ⟨call, -, rfl⟩ := List.mem_map.mp hx
        rfl
      · simp at hx
  | sigInt => exact connects_sigInt h
  | message now address port m => exact connects_message now address port m h

theorem connects_destruct (c : Client Address) : Connects c (history [] c) := by
  rw [history, destruct, Connects]
  cases hconnected : c.isConnected with
  | true => exact .destroyed
  | false => exact .done _

theorem connects_history (hfollow : TimersFollow c) (hfires : Along step Fires events c) :
    Connects c (history events c) := by
  induction events generalizing c with
  | nil => exact connects_destruct c
  | cons e events ih =>
    obtain ⟨hfires, hrest⟩ := hfires
    exact connects_step hfollow hfires (ih (timersFollow_step hfollow e) hrest)

/-- Every run of the client shows well-formed connections. -/
theorem connections_wellFormed (server : Address) (port : UInt16) {interval : UInt32}
    (_hinterval : 0 < interval) (uniqueId : UInt64)
    (hfires : Along step Fires events (.new server port interval uniqueId)) :
    Connections server port uniqueId interval false 0
      (history events (.new server port interval uniqueId)) :=
  connects_history ⟨rfl, rfl, rfl⟩ hfires

/-- A client that is closed by its server, connects again, and is interrupted. -/
theorem connections_wellFormed_again :
    let events : List (Event ℕ) := [.connect (fun _ => some 5) 0 0, .pingTimer 250,
      .message 300 1 9 (.close ⟨7, CloseMessage.reasonTimeout⟩), .connect (fun _ => some 5) 900 900,
      .pingTimer 1150, .sigInt]
    Connections 1 9 7 250 false 0 (history events (.new 1 9 250 7)) :=
  connections_wellFormed 1 9 (by decide) 7
    ⟨trivial, by decide, trivial, trivial, by decide, trivial, trivial⟩

end PacketLossUtils.Client
