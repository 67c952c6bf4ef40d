import PacketLossUtils.ServerRecord

/-! Every step of the server, as one registered client sees it. -/
namespace PacketLossUtils

open Effect

variable {Address : Type} {uniqueId : UInt64} {c c' : ClientInfo Address}

namespace ClientInfo

theorem run_endpoint (events : List Event) (c : ClientInfo Address) :
    (Trace.run (step uniqueId) events c).1.address = c.address ∧
      (Trace.run (step uniqueId) events c).1.port = c.port := by
  apply Trace.run_invariant (I := fun (c' : ClientInfo Address) _ =>
    c'.address = c.address ∧ c'.port = c.port) ⟨rfl, rfl⟩
  rintro e - c' - ⟨haddress, hport⟩
  obtain ⟨haddress', hport'⟩ := step_endpoint uniqueId e c'
  exact ⟨haddress'.trans haddress, hport'.trans hport⟩

/-- Without a ping nothing is accepted. -/
theorem run_quiet {events : List Event} (c : ClientInfo Address)
    (hquiet : ∀ now now' counter, .receivedPing now now' counter ∉ events) :
    Party.Run Eq uniqueId c.party (Trace.run (step uniqueId) events c).2 []
      (Trace.run (step uniqueId) events c).1.party := by
  apply Trace.run_invariant (I := fun (c' : ClientInfo Address) log =>
    Party.Run Eq uniqueId c.party log [] c'.party) .refl
  intro e he c' log hrun
  cases e with
  | pingTick skipMessage => exact hrun.trans (pingTick_run skipMessage uniqueId c')
  | timeoutTick now => exact hrun.trans (timeoutTick_run now uniqueId c')
  | receivedPing now now' counter => exact absurd he (hquiet now now' counter)

/-- The base ticks of a record write pings to its endpoint, and nothing else. -/
theorem pingTick_write {skipMessage : Bool} {m : Message} {address : Address} {port : UInt16}
    (h : .writeDatagram m address port ∈ (c.pingTick skipMessage uniqueId).2) :
    (∃ ping, m = .ping ping) ∧ c.address = address ∧ c.port = port := by
  simp only [pingTick] at h
  split at h <;> [split at h; skip] <;> simp at h
  exact ⟨⟨_, h.1⟩, h.2.1.symm, h.2.2.symm⟩

theorem pingTicks_write {skipMessage : Bool} {n : ℕ} {m : Message} {address : Address}
    {port : UInt16} (h : .writeDatagram m address port ∈
      (Trace.run (step uniqueId) (List.replicate n (.pingTick skipMessage)) c).2) :
    (∃ ping, m = .ping ping) ∧ c.address = address ∧ c.port = port := by
  induction n generalizing c with
  | zero => simp at h
  | succ n ih =>
    rw [List.replicate_succ, Trace.run_cons] at h
    rcases List.mem_append.mp h with h | h
    · exact pingTick_write h
    · obtain ⟨haddress, hport⟩ := step_endpoint uniqueId (.pingTick skipMessage) c
      rw [← haddress, ← hport]
      exact ih h

end ClientInfo

namespace Server

variable {s : Server Address} {e : Event Address}

theorem Swept.events {R : ℤ → Prop} {log : List (Effect Address)}
    (h : Swept uniqueId R (some c) (some c') log) :
    ∃ events, (∀ x ∈ events, ∃ t, R t ∧ x = .timeoutTick t) ∧
      Trace.run (ClientInfo.step uniqueId) events c = (c', log) := by
  obtain ⟨events, c₁, log', hevents, hrun, ⟨hstays, rfl⟩ | ⟨hgone, _⟩⟩ := h.run
  · obtain rfl := Option.some.inj hstays
    exact ⟨events, hevents, hrun⟩
  · cases hgone

theorem step_ping {m : PingMessage} (now now' : ℤ) (address : Address) (port : UInt16)
    (hc : s.clientInfos[m.uniqueId]? = some c) :
    (s.step (.message now now' address port (.ping m))).1.clientInfos[m.uniqueId]? =
      some (c.receivedPing now now' m.uniqueId m.counter).1 := by
  rw [step, receivedMessage_ping hc, Std.ExtTreeMap.getElem?_insert_self]

theorem step_welcome {m : WelcomeMessage} (now now' : ℤ) (address : Address) (port : UInt16)
    (hnew : m.uniqueId ∉ s.clientInfos) (haccepted : m.pingIntervalInMs % baseTimerInterval = 0) :
    (s.step (.message now now' address port (.welcome m))).1.clientInfos[m.uniqueId]? =
      some (.new address port m.pingIntervalInMs now) := by
  rcases receivedMessage_welcome_cases now now' address port m s with ⟨hignored, -⟩ | ⟨-, -, hstep⟩
  · rcases hignored with hknown | hinterval
    · exact absurd hknown hnew
    · exact absurd haccepted hinterval
  · rw [step, hstep, clientInfos_startOrStopTimersIfNeeded, Std.ExtTreeMap.getElem?_insert_self]

/-- What an event of the server can be for a record that stays. -/
def Handles (uniqueId : UInt64) (e : Event Address) (events : List ClientInfo.Event) : Prop :=
  match e with
  | .pingTimer _ => ∀ x ∈ events, ∃ skipMessage, x = .pingTick skipMessage
  | .timeoutTimer now _ => ∀ x ∈ events, ∃ i, x = .timeoutTick (now i)
  | .message now now' _ _ (.ping m) =>
    events = if m.uniqueId = uniqueId then [.receivedPing now now' m.counter] else []
  | _ => events = []

/-- Whatever a step does to a record that stays, it does by handling events of that record. -/
theorem step_events (hc : s.clientInfos[uniqueId]? = some c)
    (hc' : (s.step e).1.clientInfos[uniqueId]? = some c') :
    ∃ events, Handles uniqueId e events ∧
      Trace.run (ClientInfo.step uniqueId) events c = (c', about uniqueId (s.step e).2) := by
  cases e with
  | pingTimer now =>
    obtain ⟨hentry, hlog⟩ := onPingTimer_entry now hc
    obtain rfl := Option.some.inj (hentry.symm.trans hc')
    refine ⟨pingTicks now s.nextPingTime, ?_, by rw [step, hlog]⟩
    intro x hx
    exact ⟨_, List.eq_of_mem_replicate hx⟩
  | timeoutTimer now nowStart =>
    have hswept := onTimeoutTimer_entry now nowStart s uniqueId
    rw [hc, show (s.onTimeoutTimer now nowStart).1.clientInfos[uniqueId]? = some c' from hc']
      at hswept
    obtain ⟨events, hevents, hrun⟩ := hswept.events
    refine ⟨events, ?_, hrun⟩
    intro x hx
    obtain ⟨t, ⟨i, rfl⟩, rfl⟩ := hevents x hx
    exact ⟨i, rfl⟩
  | sigInt => simp [step, onSigIntReceived] at hc'
  | message now now' address port m =>
    by_cases hid : m.getUniqueId = uniqueId
    · subst hid
      cases m with
      | ping m =>
        simp only [Message.getUniqueId] at hc hc' ⊢
        have hself := about_eq_self
          (ClientInfo.peer_receivedPing now now' m.uniqueId m.counter c)
        refine ⟨[.receivedPing now now' m.counter], by simp [Handles], ?_⟩
        simp only [step, receivedMessage_ping hc, Std.ExtTreeMap.getElem?_insert_self] at hc' ⊢
        obtain rfl := Option.some.inj hc'
        rw [hself, Trace.run_cons, Trace.run_nil, List.append_nil]
        rfl
      | welcome m =>
        rcases receivedMessage_welcome_cases now now' address port m s with
          ⟨-, hignored⟩ | ⟨hunknown, -⟩
        · rw [step, hignored] at hc' ⊢
          obtain rfl := Option.some.inj (hc.symm.trans hc')
          exact ⟨[], rfl, rfl⟩
        · exact absurd (TreeMap.mem_iff_exists.mpr ⟨c, hc⟩) hunknown
      | close m =>
        rw [step, receivedMessage_close, Message.getUniqueId,
          Std.ExtTreeMap.getElem?_erase_self] at hc'
        cases hc'
    · obtain ⟨hentry, hlog⟩ := receivedMessage_other now now' address port hid s
      obtain rfl := Option.some.inj ((hentry.trans hc).symm.trans hc')
      refine ⟨[], ?_, by rw [step, hlog, Trace.run_nil]⟩
      cases m with
      | ping m => exact (if_neg hid).symm
      | _ => rfl

/-- What all events of its record keep, a step keeps. -/
theorem step_keeps {P : ClientInfo Address → Prop} (hc : s.clientInfos[uniqueId]? = some c)
    (hc' : (s.step e).1.clientInfos[uniqueId]? = some c') (h : P c)
    (hkeeps : ∀ events, Handles uniqueId e events → ∀ x ∈ events, ∀ c,
      P c → P (c.step uniqueId x).1) : P c' := by
  obtain ⟨events, hhandles, hrun⟩ := step_events hc hc'
  have hall : P (Trace.run (ClientInfo.step uniqueId) events c).1 := by
    apply Trace.run_invariant (I := fun c _ => P c) h
    intro x hx c _ hc
    exact hkeeps events hhandles x hx c hc
  rwa [hrun] at hall

/-- Where the event of a record comes from. -/
theorem Handles.of_mem {events : List ClientInfo.Event} {x : ClientInfo.Event}
    (h : Handles uniqueId e events) (hx : x ∈ events) :
    (∃ now skipMessage, e = .pingTimer now ∧ x = .pingTick skipMessage) ∨
      (∃ now nowStart i, e = .timeoutTimer now nowStart ∧ x = .timeoutTick (now i)) ∨
      ∃ now now' address port m, e = .message now now' address port (.ping m) ∧
        m.uniqueId = uniqueId ∧ x = .receivedPing now now' m.counter := by
  cases e with
  | pingTimer now =>
    obtain ⟨skipMessage, rfl⟩ := h x hx
    exact .inl ⟨now, skipMessage, rfl, rfl⟩
  | timeoutTimer now nowStart =>
    obtain ⟨i, rfl⟩ := h x hx
    exact .inr (.inl ⟨now, nowStart, i, rfl, rfl⟩)
  | sigInt =>
    obtain rfl : events = [] := h
    exact absurd hx List.not_mem_nil
  | message now now' address port m =>
    cases m with
    | ping m =>
      obtain rfl : events = _ := h
      split at hx
      · rename_i hid
        exact .inr (.inr ⟨now, now', address, port, m, rfl, hid, List.mem_singleton.mp hx⟩)
      · exact absurd hx List.not_mem_nil
    | welcome m =>
      obtain rfl : events = [] := h
      exact absurd hx List.not_mem_nil
    | close m =>
      obtain rfl : events = [] := h
      exact absurd hx List.not_mem_nil

/-- The event is no ping of the client. -/
def NoPing (uniqueId : UInt64) (e : Event Address) : Prop :=
  ∀ now now' address port m, e = .message now now' address port (.ping m) → m.uniqueId ≠ uniqueId

theorem Handles.no_ping {events : List ClientInfo.Event} (h : Handles uniqueId e events)
    (hping : NoPing uniqueId e) (now now' : ℤ) (counter : UInt64) :
    .receivedPing now now' counter ∉ events := by
  intro hmem
  obtain ⟨_, _, _, hx⟩ | ⟨_, _, _, _, hx⟩ | ⟨_, _, _, _, m, he, hid, _⟩ := h.of_mem hmem
  · cases hx
  · cases hx
  · exact hping _ _ _ _ m he hid

/-- The pings of a client that an event makes the server accept. -/
def accepted (uniqueId : UInt64) (e : Event Address) (s : Server Address) : List PingMessage :=
  match e with
  | .message _ _ _ _ (.ping m) =>
    if m.uniqueId = uniqueId then
      (s.clientInfos[uniqueId]?.map fun c => c.accepted m).getD []
    else []
  | _ => []

theorem accepted_of_noPing (hping : NoPing uniqueId e) : s.accepted uniqueId e = [] := by
  cases e with
  | message now now' address port m =>
    cases m with
    | ping m => exact if_neg (hping now now' address port m rfl)
    | welcome => rfl
    | close => rfl
  | _ => rfl

theorem accepted_other {now now' : ℤ} {address : Address} {port : UInt16} {m : Message}
    (hne : m.getUniqueId ≠ uniqueId) :
    s.accepted uniqueId (.message now now' address port m) = [] := by
  apply accepted_of_noPing
  rintro _ _ _ _ m ⟨⟩
  exact hne

theorem accepted_of_ne (he : ∀ now now' address port m, e ≠ .message now now' address port m) :
    s.accepted uniqueId e = [] :=
  accepted_of_noPing fun now now' address port _ h => absurd h (he now now' address port _)

/-- What a step does to a client that is and stays registered. -/
theorem step_run (hc : s.clientInfos[uniqueId]? = some c)
    (hc' : (s.step e).1.clientInfos[uniqueId]? = some c') :
    Party.Run Eq uniqueId c.party (about uniqueId (s.step e).2) (s.accepted uniqueId e) c'.party ∧
      c'.address = c.address ∧ c'.port = c.port := by
  obtain ⟨events, hhandles, hrun⟩ := step_events hc hc'
  have hentry : c' = (Trace.run (ClientInfo.step uniqueId) events c).1 := by rw [hrun]
  have hlog : about uniqueId (s.step e).2 = (Trace.run (ClientInfo.step uniqueId) events c).2 := by
    rw [hrun]
  rw [hentry, hlog]
  refine ⟨?_, ClientInfo.run_endpoint events c⟩
  by_cases hping : NoPing uniqueId e
  · rw [accepted_of_noPing hping]
    exact ClientInfo.run_quiet c (hhandles.no_ping hping)
  · simp only [NoPing, not_forall, not_not] at hping
    obtain ⟨now, now', address, port, m, rfl, rfl⟩ := hping
    obtain rfl : events = _ := hhandles
    rw [accepted, if_pos rfl, if_pos rfl, hc, Trace.run_cons, Trace.run_nil, List.append_nil]
    exact ClientInfo.receivedPing_run now now' m.uniqueId m c

/-- If the timeout timer fires, the clock shows no more than `limit`. -/
def FiresBy (limit : ℤ) (e : Event Address) : Prop :=
  match e with
  | .timeoutTimer now _ => ∀ i, now i ≤ limit
  | _ => True

theorem quiet_closeClients (s : Server Address) :
    ∀ x ∈ s.closeClients, x.builtPing = none ∧ x.call = none := by
  intro x hx
  obtain ⟨entry, _, rfl⟩ := List.mem_map.mp hx
  exact ⟨rfl, rfl⟩

/-- A message of a client that is not registered is a Welcome that registers it, or changes
nothing for it. -/
theorem receivedMessage_unknown (now now' : ℤ) (address : Address) (port : UInt16) {m : Message}
    (hc : s.clientInfos[m.getUniqueId]? = none) :
    (∀ x ∈ (s.receivedMessage now now' address port m).2, x.builtPing = none ∧ x.call = none) ∧
      s.accepted m.getUniqueId (.message now now' address port m) = [] ∧
      ∀ c', (s.receivedMessage now now' address port m).1.clientInfos[m.getUniqueId]? = some c' →
        ∃ w, m = .welcome w ∧ c' = .new address port w.pingIntervalInMs now := by
  cases m with
  | ping m =>
    simp only [Message.getUniqueId] at hc ⊢
    rw [receivedMessage_ping_none hc, hc]
    refine ⟨List.forall_mem_singleton.mpr ⟨rfl, rfl⟩, ?_, by simp⟩
    simp [accepted, hc]
  | welcome m =>
    simp only [Message.getUniqueId] at hc ⊢
    rcases receivedMessage_welcome_cases now now' address port m s with
      ⟨-, hignored⟩ | ⟨-, -, hregistered⟩
    · rw [hignored, hc]
      exact ⟨by simp, rfl, by simp⟩
    · rw [hregistered, clientInfos_startOrStopTimersIfNeeded, Std.ExtTreeMap.getElem?_insert_self]
      refine ⟨List.forall_mem_singleton.mpr ⟨rfl, rfl⟩, rfl, ?_⟩
      intro c' hc'
      exact ⟨m, rfl, (Option.some.inj hc').symm⟩
  | close m =>
    rw [receivedMessage_close, Message.getUniqueId, Std.ExtTreeMap.getElem?_erase_self]
    exact ⟨by simp, rfl, by simp⟩

/-- A step with a client that is not registered: at most it registers with a Welcome. -/
theorem step_unknown (hc : s.clientInfos[uniqueId]? = none) :
    (∀ x ∈ about uniqueId (s.step e).2, x.builtPing = none ∧ x.call = none) ∧
      s.accepted uniqueId e = [] ∧
      ∀ c', (s.step e).1.clientInfos[uniqueId]? = some c' → ∃ now now' m,
        e = .message now now' c'.address c'.port (.welcome m) ∧ m.uniqueId = uniqueId ∧
          c' = .new c'.address c'.port m.pingIntervalInMs now := by
  cases e with
  | pingTimer now =>
    obtain ⟨hentry, hlog⟩ := onPingTimer_none now hc
    rw [step, hentry, hlog]
    exact ⟨by simp, rfl, by simp⟩
  | timeoutTimer now nowStart =>
    have hswept := onTimeoutTimer_entry now nowStart s uniqueId
    rw [hc] at hswept
    rw [step]
    generalize about uniqueId (s.onTimeoutTimer now nowStart).2 = log at hswept ⊢
    generalize (s.onTimeoutTimer now nowStart).1.clientInfos[uniqueId]? = after at hswept ⊢
    cases hswept
    exact ⟨by simp, rfl, by simp⟩
  | sigInt =>
    refine ⟨fun x hx => quiet_closeClients s x (List.mem_filter.mp hx).1, rfl, ?_⟩
    simp [step, onSigIntReceived]
  | message now now' address port m =>
    by_cases hid : m.getUniqueId = uniqueId
    · subst hid
      obtain ⟨hquiet, haccepted, hregister⟩ := receivedMessage_unknown now now' address port hc
      refine ⟨fun x hx => hquiet x (List.mem_filter.mp hx).1, haccepted, ?_⟩
      intro c' hc'
      obtain ⟨w, rfl, rfl⟩ := hregister c' hc'
      exact ⟨now, now', w, rfl, rfl, rfl⟩
    · obtain ⟨hentry, hlog⟩ := receivedMessage_other now now' address port hid s
      rw [step, hentry, hlog, hc]
      exact ⟨by simp, accepted_other hid, by simp⟩

theorem Swept.no_ping {R : ℤ → Prop} {before after : Option (ClientInfo Address)}
    {log : List (Effect Address)} (h : Swept uniqueId R before after log) :
    ∀ x ∈ log, x.builtPing = none := by
  have htick : ∀ (now : ℤ) (c : ClientInfo Address), ∀ x ∈ (c.timeoutTick now uniqueId).2,
      x.builtPing = none := by
    intro now c x hx
    rw [ClientInfo.timeoutTick] at hx
    split at hx
    · obtain ⟨c, _, rfl⟩ := List.mem_map.mp hx
      rfl
    · simp at hx
  induction h with
  | refl => simp
  | dead =>
    simp only [List.forall_mem_append, List.forall_mem_singleton]
    exact ⟨htick _ _, rfl⟩
  | tick _ _ ih =>
    simp only [List.forall_mem_append]
    exact ⟨htick _ _, ih⟩

/-- Pings are built when the ping timer fires and at no other time. -/
theorem no_ping_step (he : ∀ now, e ≠ .pingTimer now) : ∀ x ∈ (s.step e).2, x.builtPing = none := by
  cases e with
  | pingTimer now => exact (he now rfl).elim
  | timeoutTimer now nowStart =>
    intro x hx
    refine (onTimeoutTimer_entry now nowStart s x.peer).no_ping x ?_
    exact List.mem_filter.mpr ⟨hx, by simp⟩
  | sigInt => exact fun x hx => (quiet_closeClients s x hx).1
  | message now now' address port m =>
    cases m with
    | ping m =>
      cases hc : s.clientInfos[m.uniqueId]? with
      | some c =>
        rw [step, receivedMessage_ping hc]
        simp only [ClientInfo.receivedPing]
        split <;> simp [builtPing]
      | none =>
        rw [step, receivedMessage_ping_none hc]
        simp [builtPing]
    | welcome m =>
      rcases receivedMessage_welcome_cases now now' address port m s with
        ⟨-, hignored⟩ | ⟨-, -, hregistered⟩
      · simp [step, hignored]
      · simp [step, hregistered, builtPing]
    | close m => simp [step, receivedMessage_close]

/-- Pings go to where the client they are about registered from. -/
theorem step_destination {m : PingMessage} {address : Address} {port : UInt16}
    (h : .writeDatagram (.ping m) address port ∈ (s.step e).2) :
    ∃ c, s.clientInfos[m.uniqueId]? = some c ∧ c.address = address ∧ c.port = port := by
  by_cases he : ∃ now, e = .pingTimer now
  · obtain ⟨now, rfl⟩ := he
    have habout : .writeDatagram (.ping m) address port ∈
        about m.uniqueId (s.onPingTimer now).2 :=
      List.mem_filter.mpr ⟨h, by simp [peer, Message.getUniqueId]⟩
    cases hc : s.clientInfos[m.uniqueId]? with
    | some c =>
      rw [(onPingTimer_entry now hc).2] at habout
      exact ⟨c, rfl, (ClientInfo.pingTicks_write habout).2⟩
    | none =>
      rw [(onPingTimer_none now hc).2] at habout
      simp at habout
  · have hnone := no_ping_step (fun now hnow => he ⟨now, hnow⟩) _ h
    simp [builtPing] at hnone

/-- A record is there already, with the same endpoint, or a Welcome from its endpoint has just
made it. -/
theorem step_origin (hc' : (s.step e).1.clientInfos[uniqueId]? = some c') :
    (∃ c, s.clientInfos[uniqueId]? = some c ∧ c.address = c'.address ∧ c.port = c'.port) ∨
      ∃ now now' m, e = .message now now' c'.address c'.port (.welcome m) ∧
        m.uniqueId = uniqueId := by
  cases hc : s.clientInfos[uniqueId]? with
  | some c =>
    obtain ⟨_, haddress, hport⟩ := step_run hc hc'
    exact .inl ⟨c, rfl, haddress.symm, hport.symm⟩
  | none =>
    obtain ⟨_, _, hregister⟩ := step_unknown (e := e) hc
    obtain ⟨now, now', m, he, hid, _⟩ := hregister c' hc'
    exact .inr ⟨now, now', m, he, hid⟩

end Server

end PacketLossUtils
