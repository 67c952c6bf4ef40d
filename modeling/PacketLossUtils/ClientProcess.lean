import PacketLossUtils.ClientLifecycle
import PacketLossUtils.EventLoop

/-! The process of the client: one attempt to connect, and the event loop if it succeeds. -/
namespace PacketLossUtils.Client

open Effect NetworkCore Trace

variable {Address : Type} {c : Client Address}

/-- The event that a datagram is. -/
def ofDatagram (now : ℤ) (address : Address) (port : UInt16) (message : Message) :
    Event Address :=
  .message now address port message

/-- `onSigIntReceived` calls `QCoreApplication::exit(0)`. -/
def callsExit : Event Address → Bool
  | .sigInt => true
  | _ => false

/-- What the process calls of its own accord: `connect()` is not among it. -/
def InLoop : Event Address → Prop
  | .connect _ _ _ => False
  | _ => True

/-- `QString::lastIndexOf`, without the -1 for a character that does not occur. -/
def lastIndexOf (c : Char) (s : QString) : Option ℕ :=
  (s.reverse.findIdx? (· == c)).map fun i => s.length - 1 - i

/-- The address and the port in the value of the client option. A port that is no number reads as
0, and one of more than 16 bits loses those in front. -/
def parseServer (qt : QtText) (optionValue : QString) : QString × UInt16 :=
  let serverAddress := if optionValue.isEmpty then "127.0.0.1".toList else optionValue
  match lastIndexOf ':' serverAddress with
  | none => (serverAddress, 12702)
  | some pos =>
    (serverAddress.take pos, ((qt.toUInt (serverAddress.drop (pos + 1))).getD 0).toUInt16)

/-- The client that `main` builds. -/
def configured (address : Address) (port : UInt16) (uniqueId : UInt64) (debug : Bool) :
    Client Address :=
  let client : Client Address := .new address port 250 uniqueId
  if debug then client.setDebugPingStats true else client

section

variable [HostAddress Address]

/-- The client's branch of `main` from where the address is resolved: the value returned and what
was done until then. -/
def process (qt : QtText) (address : Address) (port : UInt16) (uniqueId : UInt64) (debug : Bool)
    (pending : ℕ → Option ℕ) (now now' : ℤ)
    (iterations : List (List (Wakeup Address ℤ (Event Address)))) :
    Option (ℤ × List (Effect Address)) :=
  let connected := (configured address port uniqueId debug).connect pending now now'
  if !connected.2 then some (-3, connected.1.2 ++ connected.1.1.destruct)
  else
    let left := (Loop.start connected.1.1).exec qt step ofDatagram callsExit iterations
    left.result.map fun code => (code, connected.1.2 ++ left.effects ++ left.state.destruct)

/-- The client's branch of `main`; `resolve` is the lookup of host names. -/
def main (qt : QtText) (resolve : QString → List Address) (optionValue : QString)
    (uniqueId : UInt64) (debug : Bool) (pending : ℕ → Option ℕ) (now now' : ℤ)
    (iterations : List (List (Wakeup Address ℤ (Event Address)))) :
    Option (ℤ × List (Effect Address)) :=
  let server := parseServer qt optionValue
  match resolve server.1 with
  | [] => some (-2, [])
  | address :: _ => process qt address server.2 uniqueId debug pending now now' iterations

/-- The events of the loop, in order. -/
def handled (qt : QtText) (iterations : List (List (Wakeup Address ℤ (Event Address)))) :
    List (Event Address) :=
  (taken qt callsExit iterations).flatMap (Wakeup.events qt ofDatagram)

/-- The event ends the connection to the server: an interrupt, or the Close of the server. -/
def ends (c : Client Address) : Event Address → Bool
  | .sigInt => true
  | .message _ address port (.close m) =>
    HostAddress.isEqual address c.serverHostAddress && port == c.serverPort &&
      m.uniqueId == c.uniqueId
  | _ => false

end

/-- What the client writes when the event ends its connection; none is the destructor. -/
def farewell (c : Client Address) : Option (Event Address) → List (Message × Address × UInt16)
  | some (.message _ _ _ _) => []
  | _ => [(.close ⟨c.uniqueId, CloseMessage.reasonQuit⟩, c.serverHostAddress, c.serverPort)]

/-- A ping to the server. -/
def toServer (c : Client Address) (m : PingMessage) : Message × Address × UInt16 :=
  (.ping m, c.serverHostAddress, c.serverPort)

/-! ### While connected -/

theorem SameSetup.toServer {c' : Client Address} (h : SameSetup c c') :
    c'.toServer = c.toServer := by
  funext m
  rw [Client.toServer, Client.toServer, h.serverHostAddress, h.serverPort]

theorem SameSetup.farewell {c' : Client Address} (h : SameSetup c c') :
    c'.farewell = c.farewell := by
  funext e
  rw [Client.farewell.eq_def, Client.farewell.eq_def, h.serverHostAddress, h.serverPort,
    h.uniqueId]

variable [HostAddress Address] {e : Event Address} {events : List (Event Address)}

/-- The connection is ended by the events that end it and by no others. -/
theorem isConnected_step (hloop : InLoop e) :
    (c.step e).1.isConnected = (c.isConnected && !c.ends e) := by
  cases e with
  | connect => exact hloop.elim
  | pingTimer now => simpa [ends, step] using (onPingTimer_sameTimers now c).isConnected
  | timeoutTimer now => simpa [ends, step] using (onTimeoutTimer_sameTimers now c).isConnected
  | sigInt =>
    simp only [step, onSigIntReceived]
    split <;> simp_all [ends, stopTimers]
  | message now address port m =>
    simp only [step, receivedMessage]
    split
    · rename_i hstranger
      cases m <;> simp_all [ends]
    · rename_i hserver
      cases m with
      | ping m => simpa [ends] using (receivedPing_sameTimers now m c).isConnected
      | close m =>
        dsimp only
        split <;> simp_all [ends, stopTimers]
      | welcome m => simp [ends]

theorem SameSetup.ends {c' : Client Address} (h : SameSetup c c') : c'.ends = c.ends := by
  funext e
  cases e with
  | message now address port m =>
    cases m <;> simp [Client.ends, h.serverHostAddress, h.serverPort, h.uniqueId]
  | _ => rfl

/-- The event that ends the connection. -/
theorem datagrams_of_ends (hconnected : c.isConnected = true) (hends : c.ends e = true) :
    (c.step e).2.filterMap datagram = c.farewell (some e) := by
  cases e with
  | sigInt =>
    rw [step, onSigIntReceived, if_pos hconnected]
    rfl
  | message now address port m =>
    simp only [step, receivedMessage]
    cases m with
    | close m =>
      dsimp only
      split <;> [skip; split] <;> rfl
    | ping m => cases hends
    | welcome m => cases hends
  | _ => cases hends

theorem datagrams_idle (hidle : c.isConnected = false) (hfollow : TimersFollow c)
    (hloop : InLoop e) (hfires : Fires e c) : (c.step e).2.filterMap datagram = [] := by
  cases e with
  | connect => exact hloop.elim
  | pingTimer now =>
    have hactive : c.timerPingActive = true := hfires
    rw [hfollow.timerPingActive, hidle] at hactive
    cases hactive
  | timeoutTimer now =>
    have hactive : c.timerTimeoutActive = true := hfires
    rw [hfollow.timerTimeoutActive, hidle] at hactive
    cases hactive
  | sigInt => simp [step, onSigIntReceived, hidle]
  | message now address port m =>
    simp only [step, receivedMessage]
    split
    · rfl
    cases m with
    | ping m =>
      simp only [receivedPing]
      split <;> simp [datagram]
    | close m =>
      dsimp only
      split <;> rfl
    | welcome m => rfl

theorem isConnected_run (hidle : c.isConnected = false) (hloop : ∀ e ∈ events, InLoop e) :
    (run step events c).1.isConnected = false := by
  apply run_invariant (I := fun (c' : Client Address) _ => c'.isConnected = false) hidle
  intro e he c' _ hidle'
  rw [isConnected_step (hloop e he), hidle', Bool.false_and]

/-- A client that is not connected writes nothing more. -/
theorem datagrams_run_idle (hidle : c.isConnected = false) (hfollow : TimersFollow c)
    (hloop : ∀ e ∈ events, InLoop e) (hfires : Along step Fires events c) :
    ((run step events c).2 ++ (run step events c).1.destruct).filterMap datagram = [] := by
  induction events generalizing c with
  | nil => simp [destruct, hidle]
  | cons e events ih =>
    obtain ⟨hfires, hrest⟩ := hfires
    obtain ⟨hloop, hloops⟩ := List.forall_mem_cons.mp hloop
    have hstill : (c.step e).1.isConnected = false := by rw [isConnected_step hloop, hidle]; rfl
    have hfirst := datagrams_idle hidle hfollow hloop hfires
    rw [run_cons, List.append_assoc, List.filterMap_append, hfirst, List.nil_append]
    exact ih hstill (timersFollow_step hfollow e) hloops hrest

variable {qt : QtText} {address : Address} {port : UInt16} {uniqueId : UInt64} {debug : Bool}
  {pending : ℕ → Option ℕ} {now now' : ℤ}
  {iterations : List (List (Wakeup Address ℤ (Event Address)))} {code : ℤ}
  {done : List (Effect Address)}

end PacketLossUtils.Client
