import PacketLossUtils.ServerRun
import PacketLossUtils.TimeoutSweep

/-! The sessions of one client id, from the construction of the server to its destruction. -/
namespace PacketLossUtils

open Effect

variable {Address : Type} {uniqueId : UInt64} {c : ClientInfo Address}

namespace Server

/-- What a run shows of one id: that it becomes registered or stops to be, with the event in which
it does (none is the destructor), and the datagrams about it. -/
inductive Mark (Address : Type)
  | registered (e : Event Address)
  | sent (message : Message) (address : Address) (port : UInt16)
  | ended (e : Option (Event Address))

namespace Mark

def sentAll (datagrams : List (Message × Address × UInt16)) : List (Mark Address) :=
  datagrams.map fun d => .sent d.1 d.2.1 d.2.2

end Mark

/-- The marks one event leaves. -/
def marks (uniqueId : UInt64) (e : Event Address) (s : Server Address) : List (Mark Address) :=
  (if uniqueId ∉ s.clientInfos ∧ uniqueId ∈ (s.step e).1.clientInfos then [.registered e]
    else []) ++
    Mark.sentAll (datagrams uniqueId (s.step e).2) ++
    (if uniqueId ∈ s.clientInfos ∧ uniqueId ∉ (s.step e).1.clientInfos then [.ended (some e)]
    else [])

/-- The marks of a run that handles the events and then destroys the server. -/
def history (uniqueId : UInt64) : List (Event Address) → Server Address → List (Mark Address)
  | [], s =>
    Mark.sentAll (datagrams uniqueId s.destruct) ++
      if uniqueId ∈ s.clientInfos then [.ended none] else []
  | e :: events, s => marks uniqueId e s ++ history uniqueId events (s.step e).1

/-- The marks of an id that is registered from the given endpoint, or not at all: sessions one
after the other. Each begins with a Welcome whose interval is accepted, has pings to the endpoint
of that Welcome and nothing else, and ends in one of four ways. Outside of a session nothing is
written but answers to unsolicited pings. -/
inductive Lifecycle (uniqueId : UInt64) : Option (Address × UInt16) → List (Mark Address) → Prop
  | done : Lifecycle uniqueId none []
  | unsolicited (address : Address) (port : UInt16) {rest : List (Mark Address)}
      (h : Lifecycle uniqueId none rest) :
      Lifecycle uniqueId none
        (.sent (.close ⟨uniqueId, CloseMessage.reasonUnsolicited⟩) address port :: rest)
  | registered (now now' : ℤ) {address : Address} {port : UInt16} {m : WelcomeMessage}
      {rest : List (Mark Address)} (hid : m.uniqueId = uniqueId)
      (hinterval : m.pingIntervalInMs % baseTimerInterval = 0)
      (h : Lifecycle uniqueId (some (address, port)) rest) :
      Lifecycle uniqueId none
        (.registered (.message now now' address port (.welcome m)) ::
          .sent (.welcome m) address port :: rest)
  | ping {m : PingMessage} {address : Address} {port : UInt16} {rest : List (Mark Address)}
      (h : Lifecycle uniqueId (some (address, port)) rest) :
      Lifecycle uniqueId (some (address, port)) (.sent (.ping m) address port :: rest)
  | closed (now now' : ℤ) (sender : Address) (senderPort : UInt16) {m : CloseMessage}
      {endpoint : Address × UInt16} {rest : List (Mark Address)} (hid : m.uniqueId = uniqueId)
      (h : Lifecycle uniqueId none rest) :
      Lifecycle uniqueId (some endpoint)
        (.ended (some (.message now now' sender senderPort (.close m))) :: rest)
  | timedOut (now : ℕ → ℤ) (nowStart : ℤ) {address : Address} {port : UInt16}
      {rest : List (Mark Address)} (h : Lifecycle uniqueId none rest) :
      Lifecycle uniqueId (some (address, port))
        (.sent (.close ⟨uniqueId, CloseMessage.reasonTimeout⟩) address port ::
          .ended (some (.timeoutTimer now nowStart)) :: rest)
  | interrupted {address : Address} {port : UInt16} {rest : List (Mark Address)}
      (h : Lifecycle uniqueId none rest) :
      Lifecycle uniqueId (some (address, port))
        (.sent (.close ⟨uniqueId, CloseMessage.reasonQuit⟩) address port ::
          .ended (some .sigInt) :: rest)
  | destroyed {address : Address} {port : UInt16} :
      Lifecycle uniqueId (some (address, port))
        [.sent (.close ⟨uniqueId, CloseMessage.reasonQuit⟩) address port, .ended none]

/-- Where the client with the id is registered from. -/
def endpoint (uniqueId : UInt64) (s : Server Address) : Option (Address × UInt16) :=
  s.clientInfos[uniqueId]?.map fun c => (c.address, c.port)

variable {s : Server Address} {e : Event Address} {rest : List (Mark Address)}

theorem endpoint_of_some (hc : s.clientInfos[uniqueId]? = some c) :
    s.endpoint uniqueId = some (c.address, c.port) := by
  rw [endpoint, hc]
  rfl

theorem endpoint_of_none (hc : s.clientInfos[uniqueId]? = none) : s.endpoint uniqueId = none := by
  rw [endpoint, hc]
  rfl

theorem not_mem_of_none (hc : s.clientInfos[uniqueId]? = none) : uniqueId ∉ s.clientInfos := by
  rw [TreeMap.mem_iff_exists]
  simp [hc]

/-! ### Marks by what becomes of the record -/

theorem marks_stays {c' : ClientInfo Address} (hc : s.clientInfos[uniqueId]? = some c)
    (hc' : (s.step e).1.clientInfos[uniqueId]? = some c') :
    marks uniqueId e s = Mark.sentAll (datagrams uniqueId (s.step e).2) := by
  have hmem := TreeMap.mem_iff_exists.mpr ⟨c, hc⟩
  have hmem' := TreeMap.mem_iff_exists.mpr ⟨c', hc'⟩
  simp [marks, hmem, hmem']

theorem marks_ends (hc : s.clientInfos[uniqueId]? = some c)
    (hc' : (s.step e).1.clientInfos[uniqueId]? = none) :
    marks uniqueId e s =
      Mark.sentAll (datagrams uniqueId (s.step e).2) ++ [.ended (some e)] := by
  have hmem := TreeMap.mem_iff_exists.mpr ⟨c, hc⟩
  simp [marks, hmem, not_mem_of_none hc']

theorem marks_unknown (hc : s.clientInfos[uniqueId]? = none)
    (hc' : (s.step e).1.clientInfos[uniqueId]? = none) :
    marks uniqueId e s = Mark.sentAll (datagrams uniqueId (s.step e).2) := by
  simp [marks, not_mem_of_none hc, not_mem_of_none hc']

theorem marks_begins (hc : s.clientInfos[uniqueId]? = none)
    (hc' : (s.step e).1.clientInfos[uniqueId]? = some c) :
    marks uniqueId e s =
      .registered e :: Mark.sentAll (datagrams uniqueId (s.step e).2) := by
  have hmem' := TreeMap.mem_iff_exists.mpr ⟨c, hc'⟩
  simp [marks, not_mem_of_none hc, hmem']

/-! ### The events -/

theorem Lifecycle.pings {address : Address} {port : UInt16}
    {log : List (Message × Address × UInt16)} (hlog : ∀ d ∈ log, ∃ m, d = (.ping m, address, port))
    (h : Lifecycle uniqueId (some (address, port)) rest) :
    Lifecycle uniqueId (some (address, port)) (Mark.sentAll log ++ rest) := by
  induction log with
  | nil => exact h
  | cons d log ih =>
    obtain ⟨⟨m, rfl⟩, hrest⟩ := List.forall_mem_cons.mp hlog
    exact (ih hrest).ping

/-- A step that leaves the record and writes nothing about it. -/
theorem lifecycle_stays {c' : ClientInfo Address} (hc : s.clientInfos[uniqueId]? = some c)
    (hc' : (s.step e).1.clientInfos[uniqueId]? = some c')
    (hsilent : datagrams uniqueId (s.step e).2 = [])
    (h : Lifecycle uniqueId ((s.step e).1.endpoint uniqueId) rest) :
    Lifecycle uniqueId (s.endpoint uniqueId) (marks uniqueId e s ++ rest) := by
  obtain ⟨_, haddress, hport⟩ := step_run hc hc'
  rw [endpoint_of_some hc', haddress, hport] at h
  rw [endpoint_of_some hc, marks_stays hc hc', hsilent]
  exact h

/-- The same of an id that is not registered. -/
theorem lifecycle_unknown (hc : s.clientInfos[uniqueId]? = none)
    (hc' : (s.step e).1.clientInfos[uniqueId]? = none)
    (hsilent : datagrams uniqueId (s.step e).2 = [])
    (h : Lifecycle uniqueId ((s.step e).1.endpoint uniqueId) rest) :
    Lifecycle uniqueId (s.endpoint uniqueId) (marks uniqueId e s ++ rest) := by
  rw [endpoint_of_none hc'] at h
  rw [endpoint_of_none hc, marks_unknown hc hc', hsilent]
  exact h

theorem pingTicks_datagrams (skipMessage : Bool) (n : ℕ) (c : ClientInfo Address) :
    ∀ d ∈ datagrams uniqueId
        (Trace.run (ClientInfo.step uniqueId) (List.replicate n (.pingTick skipMessage)) c).2,
      ∃ m, d = (.ping m, c.address, c.port) := by
  rintro ⟨m, address, port⟩ hd
  obtain ⟨⟨ping, rfl⟩, rfl, rfl⟩ := ClientInfo.pingTicks_write (mem_datagrams.mp hd).1
  exact ⟨ping, rfl⟩

theorem lifecycle_pingTimer (now : ℤ)
    (h : Lifecycle uniqueId ((s.step (.pingTimer now)).1.endpoint uniqueId) rest) :
    Lifecycle uniqueId (s.endpoint uniqueId) (marks uniqueId (.pingTimer now) s ++ rest) := by
  cases hc : s.clientInfos[uniqueId]? with
  | none =>
    obtain ⟨hentry, hlog⟩ := onPingTimer_none now hc
    refine lifecycle_unknown hc hentry ?_ h
    rw [step, ← datagrams_about, hlog, datagrams_nil]
  | some c =>
    obtain ⟨hentry, hlog⟩ := onPingTimer_entry now hc
    obtain ⟨_, haddress, hport⟩ := step_run (e := .pingTimer now) hc hentry
    rw [endpoint_of_some (s := (s.step (.pingTimer now)).1) hentry, haddress, hport] at h
    rw [endpoint_of_some hc, marks_stays (e := .pingTimer now) hc hentry, step,
      ← datagrams_about, hlog]
    exact h.pings (pingTicks_datagrams _ _ c)

theorem lifecycle_timeoutTimer (now : ℕ → ℤ) (nowStart : ℤ)
    (h : Lifecycle uniqueId ((s.step (.timeoutTimer now nowStart)).1.endpoint uniqueId) rest) :
    Lifecycle uniqueId (s.endpoint uniqueId)
      (marks uniqueId (.timeoutTimer now nowStart) s ++ rest) := by
  cases hc : s.clientInfos[uniqueId]? with
  | none =>
    obtain ⟨hentry, hsilent⟩ := onTimeoutTimer_unknown now nowStart hc
    exact lifecycle_unknown hc hentry hsilent h
  | some c =>
    cases hc' : (s.onTimeoutTimer now nowStart).1.clientInfos[uniqueId]? with
    | none =>
      obtain ⟨-, hlog⟩ := onTimeoutTimer_gone now nowStart hc hc'
      rw [endpoint_of_none (s := (s.step (.timeoutTimer now nowStart)).1) hc'] at h
      rw [endpoint_of_some hc, marks_ends (e := .timeoutTimer now nowStart) hc hc', step, hlog]
      exact h.timedOut now nowStart
    | some c' => exact lifecycle_stays hc hc' (onTimeoutTimer_stays now nowStart hc hc').2 h

theorem datagrams_closeClients (uniqueId : UInt64) (s : Server Address) :
    datagrams uniqueId s.closeClients = (s.clientInfos[uniqueId]?.map fun c =>
      [(.close ⟨uniqueId, CloseMessage.reasonQuit⟩, c.address, c.port)]).getD [] := by
  have hpeer : ∀ e : UInt64 × ClientInfo Address,
      ∀ x ∈ [writeDatagram (.close ⟨e.1, CloseMessage.reasonQuit⟩) e.2.address e.2.port],
        x.peer = e.1 := fun e => List.forall_mem_singleton.mpr rfl
  have habout := TreeMap.filter_flatMap_toList s.clientInfos uniqueId hpeer
  rw [datagrams, about, closeClients, List.map_eq_flatMap, habout]
  cases s.clientInfos[uniqueId]? <;> rfl

theorem lifecycle_sigInt (h : Lifecycle uniqueId ((s.step .sigInt).1.endpoint uniqueId) rest) :
    Lifecycle uniqueId (s.endpoint uniqueId) (marks uniqueId .sigInt s ++ rest) := by
  have hentry : (s.step .sigInt).1.clientInfos[uniqueId]? = none := by
    simp [step, onSigIntReceived]
  have hlog : datagrams uniqueId (s.step .sigInt).2 = _ := datagrams_closeClients uniqueId s
  cases hc : s.clientInfos[uniqueId]? with
  | none => exact lifecycle_unknown hc hentry (by rw [hlog, hc]; rfl) h
  | some c =>
    rw [endpoint_of_none hentry] at h
    rw [endpoint_of_some hc, marks_ends hc hentry, hlog, hc]
    exact h.interrupted

theorem lifecycle_ping (now now' : ℤ) (address : Address) (port : UInt16) (m : PingMessage)
    (h : Lifecycle m.uniqueId
      ((s.step (.message now now' address port (.ping m))).1.endpoint m.uniqueId) rest) :
    Lifecycle m.uniqueId (s.endpoint m.uniqueId)
      (marks m.uniqueId (.message now now' address port (.ping m)) s ++ rest) := by
  cases hc : s.clientInfos[m.uniqueId]? with
  | none =>
    have hstep : s.step (.message now now' address port (.ping m)) = _ :=
      receivedMessage_ping_none hc
    have hc' : (s.step (.message now now' address port (.ping m))).1.clientInfos[m.uniqueId]? =
      none := by rw [hstep, hc]
    have hlog : datagrams m.uniqueId (s.step (.message now now' address port (.ping m))).2 =
        [(.close ⟨m.uniqueId, CloseMessage.reasonUnsolicited⟩, address, port)] := by
      rw [hstep]
      exact datagrams_cons_write rfl
    rw [endpoint_of_none hc'] at h
    rw [endpoint_of_none hc, marks_unknown hc hc', hlog]
    exact h.unsolicited address port
  | some c =>
    have hstep : s.step (.message now now' address port (.ping m)) = _ :=
      receivedMessage_ping hc
    refine lifecycle_stays hc (by rw [hstep, Std.ExtTreeMap.getElem?_insert_self]) ?_ h
    rw [hstep, ClientInfo.receivedPing]
    split
    · rfl
    · exact datagrams_map_pingStats _

theorem lifecycle_welcome (now now' : ℤ) (address : Address) (port : UInt16) (m : WelcomeMessage)
    (h : Lifecycle m.uniqueId
      ((s.step (.message now now' address port (.welcome m))).1.endpoint m.uniqueId) rest) :
    Lifecycle m.uniqueId (s.endpoint m.uniqueId)
      (marks m.uniqueId (.message now now' address port (.welcome m)) s ++ rest) := by
  rcases receivedMessage_welcome_cases now now' address port m s with
    ⟨-, hignored⟩ | ⟨hunknown, hinterval, hregistered⟩
  · have hstep : s.step (.message now now' address port (.welcome m)) = _ := hignored
    cases hc : s.clientInfos[m.uniqueId]? with
    | none => exact lifecycle_unknown hc (by rw [hstep, hc]) (by rw [hstep, datagrams_nil]) h
    | some c => exact lifecycle_stays hc (by rw [hstep, hc]) (by rw [hstep, datagrams_nil]) h
  · have hstep : s.step (.message now now' address port (.welcome m)) = _ := hregistered
    have hc := Std.ExtTreeMap.getElem?_eq_none hunknown
    have hc' : (s.step (.message now now' address port
        (.welcome m))).1.clientInfos[m.uniqueId]? =
          some (.new address port m.pingIntervalInMs now) := by
      rw [hstep, clientInfos_startOrStopTimersIfNeeded, Std.ExtTreeMap.getElem?_insert_self]
    have hlog : datagrams m.uniqueId (s.step (.message now now' address port (.welcome m))).2 =
        [(.welcome m, address, port)] := by
      rw [hstep]
      exact datagrams_cons_write rfl
    rw [endpoint_of_some hc'] at h
    rw [endpoint_of_none hc, marks_begins hc hc', hlog]
    exact h.registered now now' rfl hinterval

theorem lifecycle_close (now now' : ℤ) (address : Address) (port : UInt16) (m : CloseMessage)
    (h : Lifecycle m.uniqueId
      ((s.step (.message now now' address port (.close m))).1.endpoint m.uniqueId) rest) :
    Lifecycle m.uniqueId (s.endpoint m.uniqueId)
      (marks m.uniqueId (.message now now' address port (.close m)) s ++ rest) := by
  have hstep : s.step (.message now now' address port (.close m)) = _ :=
    receivedMessage_close now now' address port m s
  have hc' : (s.step (.message now now' address port (.close m))).1.clientInfos[m.uniqueId]? =
    none := by rw [hstep, Std.ExtTreeMap.getElem?_erase_self]
  cases hc : s.clientInfos[m.uniqueId]? with
  | none => exact lifecycle_unknown hc hc' (by rw [hstep, datagrams_nil]) h
  | some c =>
    rw [endpoint_of_none hc'] at h
    rw [endpoint_of_some hc, marks_ends hc hc', hstep, datagrams_nil]
    exact h.closed now now' address port rfl

theorem lifecycle_message (now now' : ℤ) (address : Address) (port : UInt16) (m : Message)
    (h : Lifecycle uniqueId
      ((s.step (.message now now' address port m)).1.endpoint uniqueId) rest) :
    Lifecycle uniqueId (s.endpoint uniqueId)
      (marks uniqueId (.message now now' address port m) s ++ rest) := by
  by_cases hid : m.getUniqueId = uniqueId
  · subst hid
    cases m with
    | ping m => exact lifecycle_ping now now' address port m h
    | welcome m => exact lifecycle_welcome now now' address port m h
    | close m => exact lifecycle_close now now' address port m h
  · obtain ⟨hentry, hlog⟩ := receivedMessage_other now now' address port hid s
    have hsilent : datagrams uniqueId (s.step (.message now now' address port m)).2 = [] := by
      rw [step, ← datagrams_about, hlog, datagrams_nil]
    cases hc : s.clientInfos[uniqueId]? with
    | none => exact lifecycle_unknown hc (hentry.trans hc) hsilent h
    | some c => exact lifecycle_stays hc (hentry.trans hc) hsilent h

theorem lifecycle_step (e : Event Address)
    (h : Lifecycle uniqueId ((s.step e).1.endpoint uniqueId) rest) :
    Lifecycle uniqueId (s.endpoint uniqueId) (marks uniqueId e s ++ rest) := by
  cases e with
  | pingTimer now => exact lifecycle_pingTimer now h
  | timeoutTimer now nowStart => exact lifecycle_timeoutTimer now nowStart h
  | sigInt => exact lifecycle_sigInt h
  | message now now' address port m => exact lifecycle_message now now' address port m h

theorem lifecycle_destruct (uniqueId : UInt64) (s : Server Address) :
    Lifecycle uniqueId (s.endpoint uniqueId) (history uniqueId [] s) := by
  have hlog : datagrams uniqueId s.destruct = _ := datagrams_closeClients uniqueId s
  rw [history, hlog]
  cases hc : s.clientInfos[uniqueId]? with
  | none =>
    rw [endpoint_of_none hc, if_neg (not_mem_of_none hc)]
    exact .done
  | some c =>
    rw [endpoint_of_some hc, if_pos (TreeMap.mem_iff_exists.mpr ⟨c, hc⟩)]
    exact .destroyed

theorem lifecycle_history (uniqueId : UInt64) (events : List (Event Address))
    (s : Server Address) :
    Lifecycle uniqueId (s.endpoint uniqueId) (history uniqueId events s) := by
  induction events generalizing s with
  | nil => exact lifecycle_destruct uniqueId s
  | cons e events ih => exact lifecycle_step e (ih (s.step e).1)

/-- Every run shows every id in well-formed sessions, and a Welcome of an id that is registered
changes nothing and is not answered. -/
theorem sessions_wellFormed (uniqueId : UInt64) (events : List (Event Address)) :
    Lifecycle uniqueId none (history uniqueId events .new) ∧
    ∀ (s : Server Address) (now now' : ℤ) (address : Address) (port : UInt16)
      (m : WelcomeMessage), m.uniqueId ∈ s.clientInfos →
        s.step (.message now now' address port (.welcome m)) = (s, []) := by
  refine ⟨lifecycle_history uniqueId events .new, ?_⟩
  intro s now now' address port m hknown
  rcases receivedMessage_welcome_cases now now' address port m s with
    ⟨-, hignored⟩ | ⟨hunknown, -⟩
  · exact hignored
  · exact absurd hknown hunknown

/-- A client that registers, sends its Welcome again from elsewhere, and closes. -/
theorem sessions_wellFormed_known :
    let welcome : Event ℕ := .message 0 0 1 9 (.welcome (.new 7 250))
    let again : Event ℕ := .message 5 5 2 8 (.welcome (.new 7 500))
    let close : Event ℕ := .message 9 9 1 9 (.close ⟨7, CloseMessage.reasonQuit⟩)
    Lifecycle 7 none (history 7 [welcome, again, close] .new) ∧
      (Server.new.step welcome).1.step again = ((Server.new.step welcome).1, []) :=
  ⟨(sessions_wellFormed 7 _).1,
    (sessions_wellFormed 7 []).2 _ 5 5 2 8 (.new 7 500) (by decide +kernel)⟩

end Server

end PacketLossUtils
