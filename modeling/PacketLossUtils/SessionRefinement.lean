import PacketLossUtils.Lifecycle
import PacketLossUtils.Session
import PacketLossUtils.SweepVisits

/-! The server as a family of sessions that do not share anything. -/
namespace PacketLossUtils

open Effect Trace

variable {Address : Type} {uniqueId : UInt64} {due : ℤ} {x x' : Session Address}
  {c : ClientInfo Address}

namespace Session

/-- A Close to where the session was registered from. -/
def close (uniqueId : UInt64) (reason : UInt32) (x : Session Address) : Effect Address :=
  .writeDatagram (.close ⟨uniqueId, reason⟩) x.address x.port

/-- What an event of the server is for the session of one id, or for an id without one, and what is
done for that id. The ping timer is due at `due`. -/
inductive Follows (uniqueId : UInt64) (due : ℤ) : Server.Event Address →
    Option (Session Address) → Option (Session Address) → List (Effect Address) → Prop
  /-- A message about another id. -/
  | other (now now' : ℤ) (address : Address) (port : UInt16) {m : Message}
      (hm : m.getUniqueId ≠ uniqueId) (x : Option (Session Address)) :
      Follows uniqueId due (.message now now' address port m) x x []
  | idle {e : Server.Event Address}
      (he : ∀ now now' address port m, e ≠ .message now now' address port m) :
      Follows uniqueId due e none none []
  | unsolicited (now now' : ℤ) (address : Address) (port : UInt16) {m : PingMessage}
      (hm : m.uniqueId = uniqueId) :
      Follows uniqueId due (.message now now' address port (.ping m)) none none
        [.writeDatagram (.close ⟨uniqueId, CloseMessage.reasonUnsolicited⟩) address port]
  | refused (now now' : ℤ) (address : Address) (port : UInt16) {m : WelcomeMessage}
      (hm : m.uniqueId = uniqueId)
      (hrefused : m.pingIntervalInMs % Server.baseTimerInterval ≠ 0) :
      Follows uniqueId due (.message now now' address port (.welcome m)) none none []
  | registered (now now' : ℤ) (address : Address) (port : UInt16) {m : WelcomeMessage}
      (hm : m.uniqueId = uniqueId)
      (haccepted : m.pingIntervalInMs % Server.baseTimerInterval = 0) :
      Follows uniqueId due (.message now now' address port (.welcome m)) none
        (some (.new address port m.pingIntervalInMs haccepted now))
        [.writeDatagram (.welcome m) address port]
  | registeredAlready (now now' : ℤ) (address : Address) (port : UInt16) {m : WelcomeMessage}
      (hm : m.uniqueId = uniqueId) (x : Session Address) :
      Follows uniqueId due (.message now now' address port (.welcome m)) (some x) (some x) []
  | heard (now now' : ℤ) (address : Address) (port : UInt16) {m : PingMessage}
      (hm : m.uniqueId = uniqueId) (x : Session Address) :
      Follows uniqueId due (.message now now' address port (.ping m)) (some x)
        (some (x.hear now now' uniqueId m.counter).1) (x.hear now now' uniqueId m.counter).2
  | closed (now now' : ℤ) (address : Address) (port : UInt16) {m : CloseMessage}
      (hm : m.uniqueId = uniqueId) (x : Option (Session Address)) :
      Follows uniqueId due (.message now now' address port (.close m)) x none []
  | ticked (now : ℤ) (x : Session Address) :
      Follows uniqueId due (.pingTimer now) (some x)
        (some (run (step uniqueId) (Server.pingTicks now due) x).1)
        (run (step uniqueId) (Server.pingTicks now due) x).2
  /-- If the clock stands still, then the session is met at least once. -/
  | watched (now : ℕ → ℤ) (nowStart : ℤ) {events : List ClientInfo.Event}
      (hevents : ∀ e ∈ events, ∃ i, e = .timeoutTick (now i)) (x : Session Address)
      (hstill : ∀ t, now = (fun _ => t) →
        ¬ x.Dead t ∧ ∃ n, events = List.replicate (n + 1) (.timeoutTick t)) :
      Follows uniqueId due (.timeoutTimer now nowStart) (some x)
        (some (run (step uniqueId) events x).1) (run (step uniqueId) events x).2
  | timedOut (now : ℕ → ℤ) (nowStart : ℤ) {events : List ClientInfo.Event}
      (hevents : ∀ e ∈ events, ∃ i, e = .timeoutTick (now i)) (x : Session Address)
      (hdead : ∃ i, x.Dead (now i)) :
      Follows uniqueId due (.timeoutTimer now nowStart) (some x) none
        ((run (step uniqueId) events x).2 ++ [x.close uniqueId CloseMessage.reasonTimeout])
  | interrupted (x : Session Address) :
      Follows uniqueId due .sigInt (some x) none [x.close uniqueId CloseMessage.reasonQuit]

end Session

/-- The sessions of all ids. -/
abbrev Sessions (Address : Type) := UInt64 → Option (Session Address)

namespace Server

variable {s : Server Address} {e : Event Address} {events : List (Event Address)}
  {xs : Sessions Address}

/-- The server keeps the records of the sessions, and no others. -/
def Serves (s : Server Address) (xs : Sessions Address) : Prop :=
  ∀ uniqueId, s.clientInfos[uniqueId]? = (xs uniqueId).map Session.record

/-- A run in which the server keeps the records of sessions that follow each event, each on its
own. -/
inductive Followed : List (Event Address) → Server Address → Sessions Address → Prop
  | nil {s : Server Address} {xs : Sessions Address} (h : Serves s xs) : Followed [] s xs
  | cons {e : Event Address} {events : List (Event Address)} {s : Server Address}
      {xs xs' : Sessions Address} (h : Serves s xs)
      (hstep : ∀ uniqueId, Session.Follows uniqueId s.nextPingTime e (xs uniqueId) (xs' uniqueId)
        (about uniqueId (s.step e).2))
      (hrest : Followed events (s.step e).1 xs') : Followed (e :: events) s xs

/-! ### One step -/

/-- A step is followed by a session that becomes what the record becomes. -/
def StepFollowed (uniqueId : UInt64) (s : Server Address) (e : Event Address)
    (x : Option (Session Address)) : Prop :=
  ∃ x', (s.step e).1.clientInfos[uniqueId]? = x'.map Session.record ∧
    Session.Follows uniqueId s.nextPingTime e x x' (about uniqueId (s.step e).2)

theorem followed_pingTimer (now : ℤ) {x : Option (Session Address)}
    (hx : s.clientInfos[uniqueId]? = x.map Session.record) :
    StepFollowed uniqueId s (.pingTimer now) x := by
  cases x with
  | none =>
    obtain ⟨hentry, hlog⟩ := onPingTimer_none now hx
    refine ⟨none, hentry, ?_⟩
    rw [step, hlog]
    exact .idle (by simp)
  | some x =>
    obtain ⟨hentry, hlog⟩ := onPingTimer_entry now hx
    rw [Session.record_run] at hentry hlog
    refine ⟨some _, hentry, ?_⟩
    rw [step, hlog]
    exact .ticked now x

theorem about_closeClients (uniqueId : UInt64) (s : Server Address) :
    about uniqueId s.closeClients = (s.clientInfos[uniqueId]?.map fun c =>
      [writeDatagram (.close ⟨uniqueId, CloseMessage.reasonQuit⟩) c.address c.port]).getD [] := by
  have hpeer : ∀ e : UInt64 × ClientInfo Address,
      ∀ y ∈ [writeDatagram (.close ⟨e.1, CloseMessage.reasonQuit⟩) e.2.address e.2.port],
        y.peer = e.1 := fun e => List.forall_mem_singleton.mpr rfl
  rw [about, closeClients, List.map_eq_flatMap]
  exact TreeMap.filter_flatMap_toList s.clientInfos uniqueId hpeer

/-- The session of a client that stays has been met at the readings of the firing. -/
theorem followed_stays (now : ℕ → ℤ) (nowStart : ℤ)
    (hc : s.clientInfos[uniqueId]? = some x.record)
    (hc' : (s.onTimeoutTimer now nowStart).1.clientInfos[uniqueId]? = some c) :
    StepFollowed uniqueId s (.timeoutTimer now nowStart) (some x) := by
  have hstays := TreeMap.mem_iff_exists.mpr ⟨c, hc'⟩
  have hfollowed : ∀ events, (∀ e ∈ events, ∃ i, e = .timeoutTick (now i)) →
      (∀ t, now = (fun _ => t) →
        ¬ x.Dead t ∧ ∃ n, events = List.replicate (n + 1) (.timeoutTick t)) →
      run (ClientInfo.step uniqueId) events x.record =
        (c, about uniqueId (s.onTimeoutTimer now nowStart).2) →
      StepFollowed uniqueId s (.timeoutTimer now nowStart) (some x) := by
    intro events hevents hstill hrun
    rw [Session.record_run] at hrun
    obtain ⟨rfl, hlog⟩ := Prod.mk.inj hrun
    refine ⟨some _, hc', ?_⟩
    rw [step, ← hlog]
    exact .watched now nowStart hevents x hstill
  by_cases hstill : ∃ t, now = fun _ => t
  · obtain ⟨t, rfl⟩ := hstill
    have halive := alive_of_stays hc hstays
    obtain ⟨hentry, hlog⟩ := visits_onTimeoutTimer nowStart hc halive
    refine hfollowed _ ?_ ?_ (Prod.ext (Option.some.inj (hentry.symm.trans hc')) hlog.symm)
    · intro e he
      exact ⟨0, List.eq_of_mem_replicate he⟩
    · intro t' ht'
      obtain rfl : t = t' := congrFun ht' 0
      exact ⟨halive, _, rfl⟩
  · have hswept := onTimeoutTimer_entry now nowStart s uniqueId
    rw [hc, hc'] at hswept
    obtain ⟨events, hevents, hrun⟩ := hswept.events
    refine hfollowed events ?_ (fun t ht => absurd ⟨t, ht⟩ hstill) hrun
    intro e he
    obtain ⟨_, ⟨i, rfl⟩, rfl⟩ := hevents e he
    exact ⟨i, rfl⟩

theorem followed_gone (now : ℕ → ℤ) (nowStart : ℤ)
    (hc : s.clientInfos[uniqueId]? = some x.record)
    (hc' : (s.onTimeoutTimer now nowStart).1.clientInfos[uniqueId]? = none) :
    StepFollowed uniqueId s (.timeoutTimer now nowStart) (some x) := by
  have hswept := onTimeoutTimer_entry now nowStart s uniqueId
  rw [hc, hc'] at hswept
  obtain ⟨⟨_, ⟨i, rfl⟩, hdead⟩, -⟩ := hswept.removed
  obtain ⟨events, c', log, hevents, hrun, ⟨hstays, -⟩ | ⟨-, -, hlog⟩⟩ := Swept.run hswept
  · cases hstays
  · have hclose : timeoutClose uniqueId c' = x.close uniqueId CloseMessage.reasonTimeout := by
      have hendpoint : (run (ClientInfo.step uniqueId) events x.record).1.address = x.address ∧
          (run (ClientInfo.step uniqueId) events x.record).1.port = x.port :=
        ClientInfo.run_endpoint events x.record
      rw [hrun] at hendpoint
      obtain ⟨haddress, hport⟩ := hendpoint
      rw [timeoutClose, haddress, hport]
      rfl
    rw [Session.record_run] at hrun
    obtain ⟨-, rfl⟩ := Prod.mk.inj hrun
    refine ⟨none, hc', ?_⟩
    rw [step, hlog, hclose]
    refine .timedOut now nowStart ?_ x ⟨i, hdead⟩
    intro e he
    obtain ⟨_, ⟨i, rfl⟩, rfl⟩ := hevents e he
    exact ⟨i, rfl⟩

theorem followed_timeoutTimer (now : ℕ → ℤ) (nowStart : ℤ) {x : Option (Session Address)}
    (hx : s.clientInfos[uniqueId]? = x.map Session.record) :
    StepFollowed uniqueId s (.timeoutTimer now nowStart) x := by
  cases x with
  | none =>
    have hswept := onTimeoutTimer_entry now nowStart s uniqueId
    rw [show s.clientInfos[uniqueId]? = none from hx] at hswept
    obtain ⟨hafter, hlog⟩ := hswept.unknown
    refine ⟨none, hafter, ?_⟩
    rw [step, hlog]
    exact .idle (by simp)
  | some x =>
    cases hc' : (s.onTimeoutTimer now nowStart).1.clientInfos[uniqueId]? with
    | none => exact followed_gone now nowStart hx hc'
    | some c => exact followed_stays now nowStart hx hc'

theorem followed_sigInt {x : Option (Session Address)}
    (hx : s.clientInfos[uniqueId]? = x.map Session.record) :
    StepFollowed uniqueId s .sigInt x := by
  have hentry : (s.step .sigInt).1.clientInfos[uniqueId]? = none := by
    simp [step, onSigIntReceived]
  have hlog : about uniqueId (s.step .sigInt).2 = _ := about_closeClients uniqueId s
  refine ⟨none, hentry, ?_⟩
  rw [hlog, hx]
  cases x with
  | none => exact .idle (by simp)
  | some x => exact .interrupted x

/-- What is written in answer to a message about the id. -/
theorem about_answer {m : Message} (hm : m.getUniqueId = uniqueId) (address : Address)
    (port : UInt16) :
    about uniqueId [writeDatagram m address port] = [writeDatagram m address port] :=
  about_eq_self (List.forall_mem_singleton.mpr hm)

theorem followed_ping (now now' : ℤ) (address : Address) (port : UInt16) (m : PingMessage)
    {x : Option (Session Address)} (hx : s.clientInfos[m.uniqueId]? = x.map Session.record) :
    StepFollowed m.uniqueId s (.message now now' address port (.ping m)) x := by
  cases x with
  | none =>
    have hstep : s.step (.message now now' address port (.ping m)) = _ :=
      receivedMessage_ping_none hx
    refine ⟨none, by rw [hstep]; exact hx, ?_⟩
    have hid : (Message.close ⟨m.uniqueId, CloseMessage.reasonUnsolicited⟩).getUniqueId =
      m.uniqueId := rfl
    rw [hstep, about_answer hid]
    exact .unsolicited now now' address port rfl
  | some x =>
    have hstep : s.step (.message now now' address port (.ping m)) = _ :=
      receivedMessage_ping hx
    have hself := about_eq_self
      (ClientInfo.peer_receivedPing now now' m.uniqueId m.counter x.record)
    have hheard := x.record_hear now now' m.uniqueId m.counter
    refine ⟨some (x.hear now now' m.uniqueId m.counter).1, ?_, ?_⟩
    · rw [hstep, Std.ExtTreeMap.getElem?_insert_self, hheard]
      rfl
    · rw [hstep, hself, hheard]
      exact .heard now now' address port rfl x

theorem followed_welcome (now now' : ℤ) (address : Address) (port : UInt16) (m : WelcomeMessage)
    {x : Option (Session Address)} (hx : s.clientInfos[m.uniqueId]? = x.map Session.record) :
    StepFollowed m.uniqueId s (.message now now' address port (.welcome m)) x := by
  rcases receivedMessage_welcome_cases now now' address port m s with
    ⟨hcause, hignored⟩ | ⟨hunknown, haccepted, hregistered⟩
  · have hstep : s.step (.message now now' address port (.welcome m)) = _ := hignored
    refine ⟨x, by rw [hstep]; exact hx, ?_⟩
    rw [hstep]
    cases x with
    | none =>
      rcases hcause with hknown | hrefused
      · exact absurd hknown (not_mem_of_none hx)
      · exact .refused now now' address port rfl hrefused
    | some x => exact .registeredAlready now now' address port rfl x
  · have hstep : s.step (.message now now' address port (.welcome m)) = _ := hregistered
    obtain rfl : x = none := by
      cases x with
      | none => rfl
      | some x => exact absurd (TreeMap.mem_iff_exists.mpr ⟨_, hx⟩) hunknown
    refine ⟨some (.new address port m.pingIntervalInMs haccepted now), ?_, ?_⟩
    · rw [hstep, clientInfos_startOrStopTimersIfNeeded, Std.ExtTreeMap.getElem?_insert_self,
        Option.map_some, Session.record_new]
    · have hid : (Message.welcome m).getUniqueId = m.uniqueId := rfl
      rw [hstep, about_answer hid]
      exact .registered now now' address port rfl haccepted

theorem followed_close (now now' : ℤ) (address : Address) (port : UInt16) (m : CloseMessage)
    (s : Server Address) (x : Option (Session Address)) :
    StepFollowed m.uniqueId s (.message now now' address port (.close m)) x := by
  have hstep : s.step (.message now now' address port (.close m)) = _ :=
    receivedMessage_close now now' address port m s
  refine ⟨none, by rw [hstep]; exact Std.ExtTreeMap.getElem?_erase_self, ?_⟩
  rw [hstep]
  exact .closed now now' address port rfl x

theorem followed_message (now now' : ℤ) (address : Address) (port : UInt16) (m : Message)
    {x : Option (Session Address)} (hx : s.clientInfos[uniqueId]? = x.map Session.record) :
    StepFollowed uniqueId s (.message now now' address port m) x := by
  by_cases hm : m.getUniqueId = uniqueId
  · subst hm
    cases m with
    | ping m => exact followed_ping now now' address port m hx
    | welcome m => exact followed_welcome now now' address port m hx
    | close m => exact followed_close now now' address port m s x
  · obtain ⟨hentry, hlog⟩ := receivedMessage_other now now' address port hm s
    refine ⟨x, hentry.trans hx, ?_⟩
    rw [step, hlog]
    exact .other now now' address port hm x

theorem followed_step (e : Event Address) (h : Serves s xs) (uniqueId : UInt64) :
    StepFollowed uniqueId s e (xs uniqueId) := by
  cases e with
  | pingTimer now => exact followed_pingTimer now (h uniqueId)
  | timeoutTimer now nowStart => exact followed_timeoutTimer now nowStart (h uniqueId)
  | sigInt => exact followed_sigInt (h uniqueId)
  | message now now' address port m => exact followed_message now now' address port m (h uniqueId)

/-! ### Runs -/

theorem followed_run (events : List (Event Address)) (h : Serves s xs) :
    Followed events s xs := by
  induction events generalizing s xs with
  | nil => exact .nil h
  | cons e events ih =>
    choose xs' hserves hfollows using followed_step e h
    exact .cons h hfollows (ih hserves)

/-- The records of a reachable server are those of sessions. -/
theorem exists_serves (h : Reachable step (fun _ _ => True) .new s) :
    ∃ xs : Sessions Address, Serves s xs := by
  induction h with
  | start => exact ⟨fun _ => none, fun uniqueId => by simp [new]⟩
  | step e _ _ ih =>
    obtain ⟨xs, hserves⟩ := ih
    choose xs' hserves' _ using followed_step e hserves
    exact ⟨xs', hserves'⟩

/-- Every run of the server is one of sessions that do not share anything, that count without
wrapping, and that forget no result. -/
theorem followed_new (events : List (Event Address)) :
    Followed events .new fun _ => none := by
  apply followed_run
  intro uniqueId
  simp [new]

end Server

end PacketLossUtils
