import PacketLossUtils.Lifecycle
import PacketLossUtils.MessageSize

/-! Whom the server writes to, and how often. -/
namespace PacketLossUtils.Server

open Effect Trace

variable {Address : Type} {uniqueId : UInt64} {s : Server Address} {e : Event Address}
  {events : List (Event Address)}

/-- The endpoints that messages with the id came from, in the order of arrival. -/
def senders (uniqueId : UInt64) (events : List (Event Address)) : List (Address × UInt16) :=
  events.filterMap fun
    | .message _ _ address port m =>
      if m.getUniqueId = uniqueId then some (address, port) else none
    | _ => none

/-- The answers to the pings of an id that is not registered. -/
def rejections (uniqueId : UInt64) (events : List (Event Address)) :
    List (Message × Address × UInt16) :=
  events.filterMap fun
    | .message _ _ address port (.ping m) =>
      if m.uniqueId = uniqueId then
        some (.close ⟨uniqueId, CloseMessage.reasonUnsolicited⟩, address, port)
      else none
    | _ => none

/-- A Welcome of the id, with an interval that is accepted. -/
def Registers (uniqueId : UInt64) (e : Event Address) : Prop :=
  ∃ now now' address port m, e = .message now now' address port (.welcome m) ∧
    m.uniqueId = uniqueId ∧ m.pingIntervalInMs % baseTimerInterval = 0

def isPing (d : Message × Address × UInt16) : Bool :=
  match d.1 with
  | .ping _ => true
  | _ => false

/-- What an event shows of an id: from where it is registered before and after, if it is, and the
datagrams about it. -/
inductive Shows (uniqueId : UInt64) : Event Address → Option (Address × UInt16) →
    List (Message × Address × UInt16) → Option (Address × UInt16) → Prop
  | quiet {e : Event Address} {endpoint : Option (Address × UInt16)}
      (hping : endpoint = none → NoPing uniqueId e) : Shows uniqueId e endpoint [] endpoint
  | pings (now : ℤ) {address : Address} {port : UInt16}
      {ds : List (Message × Address × UInt16)}
      (hds : ∀ d ∈ ds, ∃ m, d = (.ping m, address, port)) :
      Shows uniqueId (.pingTimer now) (some (address, port)) ds (some (address, port))
  | timedOut (now : ℕ → ℤ) (nowStart : ℤ) (address : Address) (port : UInt16) :
      Shows uniqueId (.timeoutTimer now nowStart) (some (address, port))
        [(.close ⟨uniqueId, CloseMessage.reasonTimeout⟩, address, port)] none
  | interrupted (address : Address) (port : UInt16) :
      Shows uniqueId .sigInt (some (address, port))
        [(.close ⟨uniqueId, CloseMessage.reasonQuit⟩, address, port)] none
  | unsolicited (now now' : ℤ) (address : Address) (port : UInt16) {m : PingMessage}
      (hid : m.uniqueId = uniqueId) :
      Shows uniqueId (.message now now' address port (.ping m)) none
        [(.close ⟨uniqueId, CloseMessage.reasonUnsolicited⟩, address, port)] none
  | registered (now now' : ℤ) (address : Address) (port : UInt16) {m : WelcomeMessage}
      (hid : m.uniqueId = uniqueId) (hinterval : m.pingIntervalInMs % baseTimerInterval = 0) :
      Shows uniqueId (.message now now' address port (.welcome m)) none
        [(.welcome m, address, port)] (some (address, port))
  | closed (now now' : ℤ) (address : Address) (port : UInt16) (m : CloseMessage)
      (endpoint : Address × UInt16) :
      Shows uniqueId (.message now now' address port (.close m)) (some endpoint) [] none

theorem Shows.known {endpoint : Address × UInt16} :
    Shows uniqueId e (some endpoint) [] (some endpoint) :=
  .quiet (by simp)

theorem Shows.noPing {endpoint : Option (Address × UInt16)}
    (h : ∀ now now' address port m, e ≠ .message now now' address port (.ping m)) :
    Shows uniqueId e endpoint [] endpoint := by
  refine .quiet ?_
  intro _ now now' address port m he
  exact absurd he (h now now' address port m)

/-! ### The events -/

theorem shows_pingTimer (now : ℤ) (s : Server Address) :
    Shows uniqueId (.pingTimer now) (s.endpoint uniqueId)
      (datagrams uniqueId (s.onPingTimer now).2) ((s.onPingTimer now).1.endpoint uniqueId) := by
  cases hc : s.clientInfos[uniqueId]? with
  | none =>
    obtain ⟨hentry, hlog⟩ := onPingTimer_none now hc
    rw [endpoint_of_none hc, endpoint_of_none hentry, ← datagrams_about, hlog]
    exact .noPing (by simp)
  | some c =>
    obtain ⟨hentry, hlog⟩ := onPingTimer_entry now hc
    obtain ⟨_, haddress, hport⟩ := step_run (e := .pingTimer now) hc hentry
    rw [endpoint_of_some hc, endpoint_of_some hentry, haddress, hport, ← datagrams_about, hlog]
    exact .pings now (pingTicks_datagrams _ _ c)

theorem shows_timeoutTimer (now : ℕ → ℤ) (nowStart : ℤ) (s : Server Address) :
    Shows uniqueId (.timeoutTimer now nowStart) (s.endpoint uniqueId)
      (datagrams uniqueId (s.onTimeoutTimer now nowStart).2)
      ((s.onTimeoutTimer now nowStart).1.endpoint uniqueId) := by
  cases hc : s.clientInfos[uniqueId]? with
  | none =>
    obtain ⟨hentry, hsilent⟩ := onTimeoutTimer_unknown now nowStart hc
    rw [endpoint_of_none hc, endpoint_of_none hentry, hsilent]
    exact .noPing (by simp)
  | some c =>
    cases hc' : (s.onTimeoutTimer now nowStart).1.clientInfos[uniqueId]? with
    | none =>
      obtain ⟨-, hlog⟩ := onTimeoutTimer_gone now nowStart hc hc'
      rw [endpoint_of_some hc, endpoint_of_none hc', hlog]
      exact .timedOut now nowStart c.address c.port
    | some c' =>
      obtain ⟨-, hsilent⟩ := onTimeoutTimer_stays now nowStart hc hc'
      obtain ⟨_, haddress, hport⟩ := step_run (e := .timeoutTimer now nowStart) hc hc'
      rw [endpoint_of_some hc, endpoint_of_some hc', haddress, hport, hsilent]
      exact .known

theorem shows_sigInt (s : Server Address) :
    Shows uniqueId .sigInt (s.endpoint uniqueId) (datagrams uniqueId s.onSigIntReceived.2)
      (s.onSigIntReceived.1.endpoint uniqueId) := by
  have hentry : s.onSigIntReceived.1.clientInfos[uniqueId]? = none := by
    simp [onSigIntReceived]
  have hlog : datagrams uniqueId s.onSigIntReceived.2 = _ := datagrams_closeClients uniqueId s
  rw [endpoint_of_none hentry, hlog]
  cases hc : s.clientInfos[uniqueId]? with
  | none =>
    rw [endpoint_of_none hc]
    exact .noPing (by simp)
  | some c =>
    rw [endpoint_of_some hc]
    exact .interrupted c.address c.port

theorem shows_ping (now now' : ℤ) (address : Address) (port : UInt16) (m : PingMessage)
    (s : Server Address) :
    let out := s.receivedMessage now now' address port (.ping m)
    Shows m.uniqueId (.message now now' address port (.ping m)) (s.endpoint m.uniqueId)
      (datagrams m.uniqueId out.2) (out.1.endpoint m.uniqueId) := by
  intro out
  cases hc : s.clientInfos[m.uniqueId]? with
  | none =>
    have hlog : datagrams m.uniqueId out.2 =
        [(.close ⟨m.uniqueId, CloseMessage.reasonUnsolicited⟩, address, port)] := by
      simp only [out, receivedMessage_ping_none hc]
      exact datagrams_cons_write rfl
    have hstill : out.1 = s := by simp only [out, receivedMessage_ping_none hc]
    rw [hlog, hstill, endpoint_of_none hc]
    exact .unsolicited now now' address port rfl
  | some c =>
    have hentry : out.1.clientInfos[m.uniqueId]? =
        some (c.receivedPing now now' m.uniqueId m.counter).1 := by
      simp only [out, receivedMessage_ping hc, Std.ExtTreeMap.getElem?_insert_self]
    have hsilent : datagrams m.uniqueId out.2 = [] := by
      simp only [out, receivedMessage_ping hc, ClientInfo.receivedPing]
      split
      · rfl
      · exact datagrams_map_pingStats _
    obtain ⟨_, haddress, hport⟩ :=
      step_run (e := .message now now' address port (.ping m)) hc hentry
    rw [endpoint_of_some hc, endpoint_of_some hentry, haddress, hport, hsilent]
    exact .known

theorem shows_welcome (now now' : ℤ) (address : Address) (port : UInt16) (m : WelcomeMessage)
    (s : Server Address) :
    let out := s.receivedMessage now now' address port (.welcome m)
    Shows m.uniqueId (.message now now' address port (.welcome m)) (s.endpoint m.uniqueId)
      (datagrams m.uniqueId out.2) (out.1.endpoint m.uniqueId) := by
  intro out
  rcases receivedMessage_welcome_cases now now' address port m s with
    ⟨-, hignored⟩ | ⟨hunknown, hinterval, hregistered⟩
  · simp only [out, hignored]
    exact .noPing (by simp)
  · have hentry : out.1.clientInfos[m.uniqueId]? =
        some (.new address port m.pingIntervalInMs now) := by
      simp only [out, hregistered, clientInfos_startOrStopTimersIfNeeded,
        Std.ExtTreeMap.getElem?_insert_self]
    have hlog : datagrams m.uniqueId out.2 = [(.welcome m, address, port)] := by
      simp only [out, hregistered]
      exact datagrams_cons_write rfl
    rw [endpoint_of_none (Std.ExtTreeMap.getElem?_eq_none hunknown), endpoint_of_some hentry,
      hlog]
    exact .registered now now' address port rfl hinterval

theorem shows_close (now now' : ℤ) (address : Address) (port : UInt16) (m : CloseMessage)
    (s : Server Address) :
    let out := s.receivedMessage now now' address port (.close m)
    Shows m.uniqueId (.message now now' address port (.close m)) (s.endpoint m.uniqueId)
      (datagrams m.uniqueId out.2) (out.1.endpoint m.uniqueId) := by
  intro out
  have hentry : out.1.clientInfos[m.uniqueId]? = none := by
    simp only [out, receivedMessage_close, Std.ExtTreeMap.getElem?_erase_self]
  have hsilent : out.2 = [] := by simp only [out, receivedMessage_close]
  rw [endpoint_of_none hentry, hsilent]
  cases hc : s.clientInfos[m.uniqueId]? with
  | none =>
    rw [endpoint_of_none hc]
    exact .noPing (by simp)
  | some c =>
    rw [endpoint_of_some hc]
    exact .closed now now' address port m _

theorem shows_message (now now' : ℤ) (address : Address) (port : UInt16) (m : Message)
    (s : Server Address) :
    Shows uniqueId (.message now now' address port m) (s.endpoint uniqueId)
      (datagrams uniqueId (s.receivedMessage now now' address port m).2)
      ((s.receivedMessage now now' address port m).1.endpoint uniqueId) := by
  by_cases hid : m.getUniqueId = uniqueId
  · subst hid
    cases m with
    | ping m => exact shows_ping now now' address port m s
    | welcome m => exact shows_welcome now now' address port m s
    | close m => exact shows_close now now' address port m s
  · obtain ⟨hentry, hlog⟩ := receivedMessage_other now now' address port hid s
    rw [← datagrams_about, hlog, endpoint, endpoint, hentry]
    refine .quiet ?_
    rintro _ _ _ _ _ ping ⟨⟩
    exact hid

theorem step_shows (uniqueId : UInt64) (e : Event Address) (s : Server Address) :
    Shows uniqueId e (s.endpoint uniqueId) (datagrams uniqueId (s.step e).2)
      ((s.step e).1.endpoint uniqueId) := by
  cases e with
  | pingTimer now => exact shows_pingTimer now s
  | timeoutTimer now nowStart => exact shows_timeoutTimer now nowStart s
  | sigInt => exact shows_sigInt s
  | message now now' address port m => exact shows_message now now' address port m s

/-! ### Runs -/

theorem senders_cons (uniqueId : UInt64) (e : Event Address) (events : List (Event Address)) :
    senders uniqueId (e :: events) = senders uniqueId [e] ++ senders uniqueId events := by
  rw [senders, senders, senders, ← List.filterMap_append, List.singleton_append]

/-- The endpoint of a session is that of its Welcome. -/
theorem Shows.endpoint {before after : Option (Address × UInt16)}
    {ds : List (Message × Address × UInt16)} (h : Shows uniqueId e before ds after)
    {endpoint : Address × UInt16} (hafter : after = some endpoint) :
    before = some endpoint ∨ endpoint ∈ senders uniqueId [e] := by
  cases h with
  | quiet => exact .inl hafter
  | pings => exact .inl hafter
  | registered now now' address port hid =>
    obtain rfl := Option.some.inj hafter
    exact .inr (by simp [senders, Message.getUniqueId, hid])
  | _ => cases hafter

/-- A datagram answers its addressee or goes to the endpoint of the session. -/
theorem Shows.addressee {before after : Option (Address × UInt16)}
    {ds : List (Message × Address × UInt16)} (h : Shows uniqueId e before ds after) :
    ∀ d ∈ ds, before = some d.2 ∨ d.2 ∈ senders uniqueId [e] := by
  cases h with
  | quiet => simp
  | pings now hds =>
    intro d hd
    obtain ⟨m, rfl⟩ := hds d hd
    exact .inl rfl
  | timedOut => exact List.forall_mem_singleton.mpr (.inl rfl)
  | interrupted => exact List.forall_mem_singleton.mpr (.inl rfl)
  | unsolicited now now' address port hid =>
    exact List.forall_mem_singleton.mpr (.inr (by simp [senders, Message.getUniqueId, hid]))
  | registered now now' address port hid =>
    exact List.forall_mem_singleton.mpr (.inr (by simp [senders, Message.getUniqueId, hid]))
  | closed => simp

/-- A message pays for its answer, and a Welcome also for the Close of its session. -/
theorem Shows.count {before after : Option (Address × UInt16)}
    {ds : List (Message × Address × UInt16)} (h : Shows uniqueId e before ds after) :
    ds.countP (!isPing ·) + after.toList.length ≤
      before.toList.length + 2 * (senders uniqueId [e]).length := by
  cases h with
  | quiet => simp
  | pings now hds =>
    have hpings : ds.countP (!isPing ·) = 0 := by
      rw [List.countP_eq_zero]
      intro d hd
      obtain ⟨m, rfl⟩ := hds d hd
      simp [isPing]
    rw [hpings]
    simp
  | timedOut => simp [isPing]
  | interrupted => simp [isPing]
  | unsolicited now now' address port hid =>
    simp [senders, isPing, Message.getUniqueId, hid]
  | registered now now' address port hid =>
    simp [senders, isPing, Message.getUniqueId, hid]
  | closed => simp

/-- Without a Welcome that is accepted an id stays unknown, and its pings are answered. -/
theorem Shows.rejected {ds : List (Message × Address × UInt16)}
    {after : Option (Address × UInt16)} (h : Shows uniqueId e none ds after)
    (hnever : ¬ Registers uniqueId e) : ds = rejections uniqueId [e] ∧ after = none := by
  cases h with
  | quiet hping =>
    refine ⟨?_, rfl⟩
    have hnone := hping rfl
    cases e with
    | message now now' address port m =>
      cases m with
      | ping m =>
        have hid : m.uniqueId ≠ uniqueId := hnone now now' address port m rfl
        simp [rejections, hid]
      | _ => rfl
    | _ => rfl
  | unsolicited now now' address port hid => simp [rejections, hid]
  | registered now now' address port hid hinterval =>
    exact (hnever ⟨_, _, _, _, _, rfl, hid, hinterval⟩).elim

theorem endpoint_run (uniqueId : UInt64) (events : List (Event Address)) (s : Server Address) :
    ∀ endpoint, (run step events s).1.endpoint uniqueId = some endpoint →
      s.endpoint uniqueId = some endpoint ∨ endpoint ∈ senders uniqueId events := by
  induction events generalizing s with
  | nil => exact fun endpoint h => .inl h
  | cons e events ih =>
    intro endpoint h
    rw [senders_cons, List.mem_append]
    rcases ih (s.step e).1 endpoint h with h | h
    · rcases (step_shows uniqueId e s).endpoint h with h | h
      · exact .inl h
      · exact .inr (.inl h)
    · exact .inr (.inr h)

theorem addressee_run (uniqueId : UInt64) (events : List (Event Address)) (s : Server Address) :
    ∀ d ∈ datagrams uniqueId (run step events s).2,
      s.endpoint uniqueId = some d.2 ∨ d.2 ∈ senders uniqueId events := by
  induction events generalizing s with
  | nil => simp
  | cons e events ih =>
    intro d hd
    rw [run_cons, datagrams_append] at hd
    rw [senders_cons, List.mem_append]
    rcases List.mem_append.mp hd with hd | hd
    · rcases (step_shows uniqueId e s).addressee d hd with h | h
      · exact .inl h
      · exact .inr (.inl h)
    · rcases ih (s.step e).1 d hd with h | h
      · rcases (step_shows uniqueId e s).endpoint h with h | h
        · exact .inl h
        · exact .inr (.inl h)
      · exact .inr (.inr h)

theorem count_run (uniqueId : UInt64) (events : List (Event Address)) (s : Server Address) :
    (datagrams uniqueId (run step events s).2).countP (!isPing ·) +
        ((run step events s).1.endpoint uniqueId).toList.length ≤
      (s.endpoint uniqueId).toList.length + 2 * (senders uniqueId events).length := by
  induction events generalizing s with
  | nil => simp
  | cons e events ih =>
    have hfirst := (step_shows uniqueId e s).count
    have hrest := ih (s.step e).1
    rw [run_cons, senders_cons, List.length_append]
    dsimp only
    rw [datagrams_append, List.countP_append]
    omega

/-- The exact answers to an id that is never registered. -/
theorem rejections_run (events : List (Event Address)) (hunknown : s.endpoint uniqueId = none)
    (hnever : ∀ e ∈ events, ¬ Registers uniqueId e) :
    datagrams uniqueId (run step events s).2 = rejections uniqueId events ∧
      (run step events s).1.endpoint uniqueId = none := by
  induction events generalizing s with
  | nil => exact ⟨rfl, hunknown⟩
  | cons e events ih =>
    obtain ⟨hfirst, hrest⟩ := List.forall_mem_cons.mp hnever
    have hshows := step_shows uniqueId e s
    rw [hunknown] at hshows
    obtain ⟨hdatagrams, hstill⟩ := hshows.rejected hfirst
    obtain ⟨hafter, hend⟩ := ih hstill hrest
    rw [run_cons, datagrams_append, hdatagrams, hafter]
    refine ⟨?_, hend⟩
    rw [rejections, rejections, rejections, ← List.filterMap_append, List.singleton_append]

/-! ### Sizes -/

/-- The statistics of every client have their full size. -/
def FullSize (s : Server Address) : Prop :=
  ∀ (id : UInt64) (c : ClientInfo Address), s.clientInfos[id]? = some c →
    c.pingStats.bitArray.length = PingStats.maxBitCount

/-- A ping has 298 bytes, and no other datagram has more. -/
def InSize (d : Message × Address × UInt16) : Prop :=
  (isPing d = true → d.1.getData.length = 298) ∧ d.1.getData.length ≤ 298

theorem inSize_welcome (m : WelcomeMessage) (address : Address) (port : UInt16) :
    InSize (.welcome m, address, port) := by
  have hlength : m.toData.length ≤ 83 := m.length_toData_le
  exact ⟨fun hping => Bool.noConfusion hping, hlength.trans (by decide)⟩

theorem inSize_close (m : CloseMessage) (address : Address) (port : UInt16) :
    InSize (.close m, address, port) := by
  have hlength : m.toData.length ≤ 35 := m.length_toData_le
  exact ⟨fun hping => Bool.noConfusion hping, hlength.trans (by decide)⟩

theorem length_bitArray_apply (t : PingStats) (call : PingStats.Call) :
    (t.apply call).bitArray.length = t.bitArray.length := by
  cases call with
  | addResult didArrive =>
    simp only [PingStats.apply, PingStats.addResult, QBitArray.setBit]
    split
    · exact List.length_set
    · rfl
  | _ => rfl

theorem length_bitArray_after (calls : List PingStats.Call) (r : Reception) :
    (r.after calls).pingStats.bitArray.length = r.pingStats.bitArray.length := by
  rw [Reception.after]
  induction calls using List.reverseRecOn with
  | nil => rfl
  | append_singleton calls call ih =>
    rw [List.foldl_append, List.foldl_cons, List.foldl_nil, length_bitArray_apply, ih]

/-- The pings of a party carry statistics of the size of its own. -/
theorem length_bitArray_built {p q : Party} {log : List (Effect Address)}
    {accepted : List PingMessage} (h : Party.Run Eq uniqueId p log accepted q) :
    ∀ m ∈ built uniqueId log,
      m.pingStats.bitArray.length = p.reception.pingStats.bitArray.length := by
  induction h with
  | refl => simp
  | @tail q' r log log' accepted accepted' hrun hstep ih =>
    intro m hm
    rw [built_append] at hm
    rcases List.mem_append.mp hm with hm | hm
    · exact ih m hm
    · rw [← length_bitArray_after (calls uniqueId log) p.reception, ← hrun.reception]
      cases hstep with
      | written n r address port hcarries =>
        simp only [built_cons_write, built_cons_call, built_nil, List.mem_singleton] at hm
        rw [hm, ← hcarries]
      | skipped n r hcarries =>
        simp only [built_cons_skip, built_nil, List.mem_singleton] at hm
        rw [hm, ← hcarries]
      | lost => simp at hm
      | seen => simp at hm
      | other p hbuilt =>
        rw [built_eq_nil (List.forall_mem_singleton.mpr hbuilt)] at hm
        exact absurd hm List.not_mem_nil

theorem FullSize.step (h : FullSize s) (e : Event Address) : FullSize (s.step e).1 := by
  rintro id c' hc'
  cases hc : s.clientInfos[id]? with
  | some c =>
    have hreception := (step_run hc hc').1.reception
    have hlength := length_bitArray_after (calls id (about id (s.step e).2)) c.reception
    have hparty : c'.party.reception = c.party.reception.after _ := hreception
    have hafter : c'.reception = c.reception.after _ := hparty
    rw [← hafter] at hlength
    exact hlength.trans (h id c hc)
  | none =>
    obtain ⟨_, _, hregister⟩ := step_unknown (e := e) hc
    obtain ⟨now, now', m, _, _, hrecord⟩ := hregister c' hc'
    rw [hrecord]
    exact List.length_replicate

theorem FullSize.inSize (h : FullSize s) (e : Event Address) (uniqueId : UInt64) :
    ∀ d ∈ datagrams uniqueId (s.step e).2, InSize d := by
  rintro ⟨m, address, port⟩ hd
  obtain ⟨hmem, hid⟩ := mem_datagrams.mp hd
  cases m with
  | welcome m => exact inSize_welcome m address port
  | close m => exact inSize_close m address port
  | ping m =>
    suffices hlength : m.toData.length = 298 from ⟨fun _ => hlength, hlength.le⟩
    have he : ∃ now, e = .pingTimer now := by
      by_contra hno
      have hnone := no_ping_step (fun now hnow => hno ⟨now, hnow⟩) _ hmem
      simp [builtPing] at hnone
    obtain ⟨now, rfl⟩ := he
    obtain ⟨c, hc, -, -⟩ := step_destination hmem
    obtain ⟨hrun, -, -⟩ := step_run (e := .pingTimer now) hc (onPingTimer_entry now hc).1
    have hbuilt : m ∈ built m.uniqueId (about m.uniqueId (s.step (.pingTimer now)).2) := by
      rw [built_about]
      exact (written_sublist_built _ _).subset (mem_written rfl hmem)
    have hsize : c.party.reception.pingStats.bitArray.length = PingStats.maxBitCount :=
      h _ c hc
    rw [PingMessage.length_toData, length_bitArray_built hrun m hbuilt, hsize,
      PingStats.maxBitCount]

theorem inSize_run (h : FullSize s) (uniqueId : UInt64) (events : List (Event Address)) :
    ∀ d ∈ datagrams uniqueId (run step events s).2, InSize d := by
  induction events generalizing s with
  | nil => simp
  | cons e events ih =>
    intro d hd
    rw [run_cons, datagrams_append] at hd
    rcases List.mem_append.mp hd with hd | hd
    · exact h.inSize e uniqueId d hd
    · exact ih (h.step e) d hd

theorem datagrams_destruct (uniqueId : UInt64) (s : Server Address) :
    datagrams uniqueId s.destruct = (s.endpoint uniqueId).toList.map fun endpoint =>
      (.close ⟨uniqueId, CloseMessage.reasonQuit⟩, endpoint) := by
  have hcloses : datagrams uniqueId s.destruct = _ := datagrams_closeClients uniqueId s
  rw [hcloses, endpoint]
  cases s.clientInfos[uniqueId]? <;> rfl

/-- In every run, with the Closes of the destructor: what the server writes about an id goes to
endpoints it has heard from under that id, each message of the id pays for two datagrams that are
no pings, and no datagram has more than the 298 bytes of a ping. -/
theorem answers_bounded (uniqueId : UInt64) (events : List (Event Address)) :
    let done := (run step events .new).2 ++ (run step events .new).1.destruct
    (∀ d ∈ datagrams uniqueId done, d.2 ∈ senders uniqueId events) ∧
      (datagrams uniqueId done).countP (!isPing ·) ≤ 2 * (senders uniqueId events).length ∧
      ∀ d ∈ datagrams uniqueId done, InSize d := by
  intro done
  have hnone : (Server.new : Server Address).endpoint uniqueId = none := by simp [endpoint, new]
  have hfull : FullSize (Server.new : Server Address) := by simp [FullSize, new]
  have haddressee := addressee_run uniqueId events .new
  have hend := endpoint_run uniqueId events .new
  have hcount := count_run uniqueId events .new
  simp only [hnone, reduceCtorEq, false_or] at haddressee hend
  rw [hnone, Option.toList_none, List.length_nil, Nat.zero_add] at hcount
  simp only [done, datagrams_append, List.forall_mem_append, List.countP_append,
    datagrams_destruct, List.forall_mem_map, Option.mem_toList]
  refine ⟨⟨haddressee, hend⟩, ?_, inSize_run hfull uniqueId events, ?_⟩
  · have hcloses : ∀ endpoints : List (Address × UInt16),
        (endpoints.map fun endpoint => ((.close ⟨uniqueId, CloseMessage.reasonQuit⟩, endpoint) :
          Message × Address × UInt16)).countP (!isPing ·) = endpoints.length := by
      intro endpoints
      rw [List.countP_map]
      exact List.countP_eq_length.mpr fun _ _ => rfl
    rw [hcloses]
    exact hcount
  · intro endpoint _
    exact inSize_close _ endpoint.1 endpoint.2

end PacketLossUtils.Server
