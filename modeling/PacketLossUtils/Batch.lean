import PacketLossUtils.Lib.Independence
import PacketLossUtils.ServerRecord

/-! Batches of messages handled at one clock reading. -/
namespace PacketLossUtils.Server

open Effect Trace

variable {Address : Type} {now : ℤ}

/-- A decoded message and its sender. -/
structure Incoming (Address : Type) where
  address : Address
  port : UInt16
  message : Message

def Incoming.uniqueId (i : Incoming Address) : UInt64 := i.message.getUniqueId

/-- Handle a message, with all clock readings the same. -/
def handle (now : ℤ) (i : Incoming Address) (s : Server Address) :
    Server Address × List (Effect Address) :=
  s.receivedMessage now now i.address i.port i.message

/-! ### What a message does to the one record it is about -/

/-- The record after the message, whether the timers are to run, and the effects. -/
structure Reaction (Address : Type) where
  entry : Option (ClientInfo Address)
  starts : Bool
  effects : List (Effect Address)

def react (now : ℤ) (i : Incoming Address) (entry : Option (ClientInfo Address)) :
    Reaction Address :=
  match i.message, entry with
  | .ping m, some c =>
    let received := c.receivedPing now now m.uniqueId m.counter
    ⟨some received.1, false, received.2⟩
  | .ping m, none =>
    ⟨none, false, [.writeDatagram (.close ⟨m.uniqueId, CloseMessage.reasonUnsolicited⟩)
      i.address i.port]⟩
  | .welcome _, some c => ⟨some c, false, []⟩
  | .welcome m, none =>
    if m.pingIntervalInMs % baseTimerInterval ≠ 0 then ⟨none, false, []⟩
    else ⟨some (.new i.address i.port m.pingIntervalInMs now), true,
      [.writeDatagram (.welcome m) i.address i.port]⟩
  | .close _, _ => ⟨none, false, []⟩

/-- Put a record, or no record, under an id. -/
def putEntry (uniqueId : UInt64) (entry : Option (ClientInfo Address)) (s : Server Address) :
    Server Address :=
  { s with
    clientInfos := match entry with
      | some c => s.clientInfos.insert uniqueId c
      | none => s.clientInfos.erase uniqueId }

/-- Start the timers unless they run. -/
def startTimers (now : ℤ) (s : Server Address) : Server Address :=
  if !s.timerPingActive then
    { s with
      timerPingActive := true
      nextPingTime := now + baseTimerInterval.toNat
      timerTimeoutActive := true }
  else s

variable {s : Server Address} {uniqueId other : UInt64} {entry entry' : Option (ClientInfo Address)}

theorem getElem?_putEntry (uniqueId a : UInt64) (entry : Option (ClientInfo Address))
    (s : Server Address) :
    (putEntry uniqueId entry s).clientInfos[a]? =
      if uniqueId = a then entry else s.clientInfos[a]? := by
  cases entry with
  | some c => exact TreeMap.getElem?_insert _ _ _ _
  | none => exact TreeMap.getElem?_erase _ _ _

theorem putEntry_self (uniqueId : UInt64) (s : Server Address) :
    putEntry uniqueId s.clientInfos[uniqueId]? s = s := by
  have hsame : (putEntry uniqueId s.clientInfos[uniqueId]? s).clientInfos = s.clientInfos := by
    apply Std.ExtTreeMap.ext_getElem?
    intro a
    rw [getElem?_putEntry]
    split
    · rename_i ha
      rw [ha]
    · rfl
  exact congrArg (fun m => ({ s with clientInfos := m } : Server Address)) hsame

theorem putEntry_comm (hne : uniqueId ≠ other) (entry entry' : Option (ClientInfo Address))
    (s : Server Address) :
    putEntry other entry' (putEntry uniqueId entry s) =
      putEntry uniqueId entry (putEntry other entry' s) := by
  have hsame : (putEntry other entry' (putEntry uniqueId entry s)).clientInfos =
      (putEntry uniqueId entry (putEntry other entry' s)).clientInfos := by
    apply Std.ExtTreeMap.ext_getElem?
    intro a
    simp only [getElem?_putEntry]
    split
    · rename_i ha
      rw [if_neg (by rw [← ha]; exact hne)]
    · rfl
  exact congrArg (fun m => ({ s with clientInfos := m } : Server Address)) hsame

theorem startTimers_putEntry (now : ℤ) (uniqueId : UInt64) (entry : Option (ClientInfo Address))
    (s : Server Address) :
    startTimers now (putEntry uniqueId entry s) = putEntry uniqueId entry (startTimers now s) := by
  cases h : s.timerPingActive <;> simp [startTimers, putEntry, h]

theorem startTimers_startTimers (now : ℤ) (s : Server Address) :
    startTimers now (startTimers now s) = startTimers now s := by
  cases h : s.timerPingActive <;> simp [startTimers, h]

@[simp] theorem clientInfos_startTimers (now : ℤ) (s : Server Address) :
    (startTimers now s).clientInfos = s.clientInfos := by
  rw [startTimers]
  split <;> rfl

/-- The state after a reaction. -/
def settle (now : ℤ) (uniqueId : UInt64) (r : Reaction Address) (s : Server Address) :
    Server Address :=
  if r.starts then startTimers now (putEntry uniqueId r.entry s) else putEntry uniqueId r.entry s

theorem getElem?_settle (r : Reaction Address) (hne : uniqueId ≠ other) :
    (settle now uniqueId r s).clientInfos[other]? = s.clientInfos[other]? := by
  rw [settle]
  split
  · rw [clientInfos_startTimers, getElem?_putEntry, if_neg hne]
  · rw [getElem?_putEntry, if_neg hne]

theorem settle_comm (hne : uniqueId ≠ other) (r r' : Reaction Address) (s : Server Address) :
    settle now other r' (settle now uniqueId r s) =
      settle now uniqueId r (settle now other r' s) := by
  have hcomm := putEntry_comm hne r.entry r'.entry
  cases hr : r.starts <;> cases hr' : r'.starts <;>
    simp [settle, hr, hr', startTimers_putEntry, startTimers_startTimers, hcomm]

/-- A message looks at the record under its id, and changes that record and the timers. -/
theorem handle_eq (now : ℤ) (i : Incoming Address) (s : Server Address) :
    handle now i s =
      (settle now i.uniqueId (react now i s.clientInfos[i.uniqueId]?) s,
        (react now i s.clientInfos[i.uniqueId]?).effects) := by
  obtain ⟨address, port, m⟩ := i
  cases m with
  | ping m =>
    cases hc : s.clientInfos[m.uniqueId]? with
    | some c =>
      rw [handle, receivedMessage_ping hc]
      simp only [Incoming.uniqueId, Message.getUniqueId, hc, react]
      rfl
    | none =>
      have hself := putEntry_self m.uniqueId s
      rw [hc] at hself
      rw [handle, receivedMessage_ping_none hc]
      simp [Incoming.uniqueId, Message.getUniqueId, hc, react, settle, hself]
  | welcome m =>
    rcases receivedMessage_welcome_cases now now address port m s with
      ⟨hreason, hignored⟩ | ⟨hunknown, hinterval, hregistered⟩
    · have hself := putEntry_self m.uniqueId s
      rw [handle, hignored]
      cases hc : s.clientInfos[m.uniqueId]? with
      | some c =>
        rw [hc] at hself
        simp [Incoming.uniqueId, Message.getUniqueId, hc, react, settle, hself]
      | none =>
        have hinterval := hreason.resolve_left (by rw [TreeMap.mem_iff_exists]; simp [hc])
        rw [hc] at hself
        simp [Incoming.uniqueId, Message.getUniqueId, hc, react, settle, hself, hinterval]
    · have hc := Std.ExtTreeMap.getElem?_eq_none hunknown
      have hsize : 0 < (s.clientInfos.insert m.uniqueId
          (.new address port m.pingIntervalInMs now)).size := by
        rw [Std.ExtTreeMap.size_insert]
        split
        · rename_i hmem
          exact absurd (Std.ExtTreeMap.contains_iff_mem.mp hmem) hunknown
        · exact Nat.succ_pos _
      rw [handle, hregistered]
      simp [Incoming.uniqueId, Message.getUniqueId, hc, react, settle, hinterval,
        startOrStopTimersIfNeeded, hsize, startTimers, putEntry]
  | close m =>
    rw [handle, receivedMessage_close]
    simp [Incoming.uniqueId, Message.getUniqueId, react, settle, putEntry]

theorem handle_independent (now : ℤ) :
    Independent (handle now : Incoming Address → _) Incoming.uniqueId peer where
  state := by
    intro i j s hne
    simp only [handle_eq]
    rw [getElem?_settle _ hne, getElem?_settle _ hne.symm]
    exact settle_comm hne _ _ s
  log := by
    intro i j s hne
    simp only [handle_eq]
    rw [getElem?_settle _ hne]
  tag_eq := by
    intro i s x hx
    by_contra hpeer
    have hother : i.message.getUniqueId ≠ x.peer := fun h => hpeer h.symm
    have hnone := (receivedMessage_other now now i.address i.port hother s).2
    have hmem : x ∈ about x.peer (handle now i s).2 :=
      List.mem_filter.mpr ⟨hx, decide_eq_true rfl⟩
    rw [handle, hnone] at hmem
    exact List.not_mem_nil hmem

/-- A batch, reordered without changing the order of the messages of any one client, leads to the
same state, timers included, and every client gets the same datagrams in the same order. -/
theorem batch_reordered (now : ℤ) (s : Server Address) {batch batch' : List (Incoming Address)}
    (horder : ∀ uniqueId : UInt64, batch.filter (fun i => i.uniqueId = uniqueId) =
      batch'.filter (fun i => i.uniqueId = uniqueId)) :
    (run (handle now) batch s).1 = (run (handle now) batch' s).1 ∧
      ∀ uniqueId : UInt64, datagrams uniqueId (run (handle now) batch s).2 =
        datagrams uniqueId (run (handle now) batch' s).2 := by
  obtain ⟨hstate, hlog⟩ := (handle_independent now).run_sameOutcome horder s
  refine ⟨hstate, fun uniqueId => ?_⟩
  have habout : about uniqueId (run (handle now) batch s).2 =
      about uniqueId (run (handle now) batch' s).2 := hlog uniqueId
  rw [datagrams, habout, ← datagrams]

/-- The Close of the only client and the Welcome of a new one. -/
theorem batch_reordered_close_welcome :
    let s : Server ℕ := (Server.new.step (.message 0 0 1 9 (.welcome (.new 7 250)))).1
    let close : Incoming ℕ := ⟨1, 9, .close ⟨7, CloseMessage.reasonQuit⟩⟩
    let welcome : Incoming ℕ := ⟨2, 9, .welcome (.new 8 500)⟩
    (run (handle 100) [close, welcome] s).1 = (run (handle 100) [welcome, close] s).1 := by
  intro s close welcome
  refine (batch_reordered 100 s ?_).1
  intro uniqueId
  by_cases h : (7 : UInt64) = uniqueId
  · subst h
    rfl
  · simp [close, welcome, Incoming.uniqueId, Message.getUniqueId, List.filter_cons, h]

end PacketLossUtils.Server
