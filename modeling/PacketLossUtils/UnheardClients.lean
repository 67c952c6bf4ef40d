import PacketLossUtils.SessionRefinement

/-! Clients that register and are never heard from. -/
namespace PacketLossUtils

open Effect PingStats Trace

variable {Address : Type} {uniqueId : UInt64} {x : Session Address} {due : ℤ}

/-- Nothing is recorded for the client, and the pings built for it carry no result. -/
structure Uninformed (uniqueId : UInt64) (log : List (Effect Address)) : Prop where
  results : results (calls uniqueId log) = []
  built : ∀ m ∈ built uniqueId log, ∃ sent, m.pingStats = kept sent 0 []

theorem Uninformed.nil : Uninformed uniqueId ([] : List (Effect Address)) :=
  ⟨rfl, by simp⟩

theorem Uninformed.append {log log' : List (Effect Address)} (h : Uninformed uniqueId log)
    (h' : Uninformed uniqueId log') : Uninformed uniqueId (log ++ log') where
  results := by rw [calls_append, results_append, h.results, h'.results, List.append_nil]
  built := by
    rw [built_append]
    exact List.forall_mem_append.mpr ⟨h.built, h'.built⟩

theorem Uninformed.of_about {log : List (Effect Address)}
    (h : Uninformed uniqueId (about uniqueId log)) : Uninformed uniqueId log := by
  obtain ⟨hresults, hbuilt⟩ := h
  rw [calls_about] at hresults
  rw [built_about] at hbuilt
  exact ⟨hresults, hbuilt⟩

/-- A datagram that is no ping. -/
theorem Uninformed.write {m : Message} (hm : ∀ ping, m ≠ .ping ping) (address : Address)
    (port : UInt16) : Uninformed uniqueId [.writeDatagram m address port] := by
  have hnone : (Effect.writeDatagram m address port).builtPing = none := by
    cases m with
    | ping m => exact absurd rfl (hm m)
    | _ => rfl
  refine ⟨?_, ?_⟩
  · rw [calls_eq_nil (List.forall_mem_singleton.mpr rfl)]
    rfl
  · rw [built_eq_nil (List.forall_mem_singleton.mpr hnone)]
    simp

namespace Session

/-- No ping of the client has arrived. -/
structure Unheard (x : Session Address) : Prop where
  results : x.results = []
  timeOfLastMessageFromOther : x.timeOfLastMessageFromOther = -1

/-- What happens to the session, other than a ping, leaves it unheard. -/
theorem unheard_step (uniqueId : UInt64) (h : Unheard x) (e : ClientInfo.Event)
    (he : ∀ now now' counter, e ≠ .receivedPing now now' counter) :
    Unheard (x.step uniqueId e).1 ∧ Uninformed uniqueId (x.step uniqueId e).2 := by
  cases e with
  | pingTick skipMessage =>
    have hstats : ofResults x.written x.results = kept x.written 0 [] := by
      rw [ofResults, h.results]
      rfl
    simp only [step, tick, ping, hstats]
    split
    · split
      · exact ⟨⟨h.results, h.timeOfLastMessageFromOther⟩, by simp, by simp; exact ⟨_, rfl⟩⟩
      · exact ⟨⟨h.results, h.timeOfLastMessageFromOther⟩, by simp, by simp; exact ⟨_, rfl⟩⟩
    · exact ⟨⟨h.results, h.timeOfLastMessageFromOther⟩, .nil⟩
  | timeoutTick now =>
    have hnot : ¬ x.Overdue now := fun hover => hover.1 h.timeOfLastMessageFromOther
    rw [step, lose, if_neg hnot]
    exact ⟨h, .nil⟩
  | receivedPing now now' counter => exact absurd rfl (he now now' counter)

theorem unheard_run (uniqueId : UInt64) (events : List ClientInfo.Event) (h : Unheard x)
    (hevents : ∀ now now' counter, .receivedPing now now' counter ∉ events) :
    Unheard (run (step uniqueId) events x).1 ∧
      Uninformed uniqueId (run (step uniqueId) events x).2 := by
  apply run_invariant (I := fun x log => Unheard x ∧ Uninformed uniqueId log) ⟨h, .nil⟩
  rintro e he x log ⟨h, hlog⟩
  obtain ⟨h', hlog'⟩ := unheard_step uniqueId h e
    fun now now' counter heq => hevents now now' counter (heq ▸ he)
  exact ⟨h', hlog.append hlog'⟩

theorem no_ping {now : ℕ → ℤ} {events : List ClientInfo.Event}
    (hevents : ∀ e ∈ events, ∃ i, e = .timeoutTick (now i)) (t t' : ℤ) (counter : UInt64) :
    .receivedPing t t' counter ∉ events := by
  intro hmem
  obtain ⟨i, hi⟩ := hevents _ hmem
  cases hi

theorem unheard_follows {e : Server.Event Address} {x x' : Option (Session Address)}
    {log : List (Effect Address)} (hfollows : Follows uniqueId due e x x' log)
    (hquiet : Server.NoPing uniqueId e) (h : ∀ y, x = some y → y.Unheard) :
    (∀ y, x' = some y → y.Unheard) ∧ Uninformed uniqueId log := by
  cases hfollows with
  | other now now' address port hm => exact ⟨h, .nil⟩
  | idle he => exact ⟨by simp, .nil⟩
  | unsolicited now now' address port hm => exact absurd hm (hquiet _ _ _ _ _ rfl)
  | refused now now' address port hm hrefused => exact ⟨by simp, .nil⟩
  | registered now now' address port hm haccepted =>
    refine ⟨?_, .write (by simp) address port⟩
    rintro y ⟨⟩
    exact ⟨rfl, rfl⟩
  | registeredAlready now now' address port hm => exact ⟨h, .nil⟩
  | heard now now' address port hm => exact absurd hm (hquiet _ _ _ _ _ rfl)
  | closed now now' address port hm => exact ⟨by simp, .nil⟩
  | ticked now x =>
    obtain ⟨hafter, hlog⟩ := unheard_run uniqueId (Server.pingTicks now due) (h x rfl)
      fun now now' counter hmem => by cases List.eq_of_mem_replicate hmem
    refine ⟨?_, hlog⟩
    rintro y ⟨⟩
    exact hafter
  | watched now nowStart hevents x =>
    obtain ⟨hafter, hlog⟩ := unheard_run uniqueId _ (h x rfl) (no_ping hevents)
    refine ⟨?_, hlog⟩
    rintro y ⟨⟩
    exact hafter
  | timedOut now nowStart hevents x =>
    obtain ⟨-, hlog⟩ := unheard_run uniqueId _ (h x rfl) (no_ping hevents)
    exact ⟨by simp, hlog.append (.write (by simp) x.address x.port)⟩
  | interrupted x => exact ⟨by simp, .write (by simp) x.address x.port⟩

end Session

namespace Server

variable {s : Server Address} {events : List (Event Address)} {xs : Sessions Address}

theorem unheard_followed (hfollowed : Followed events s xs)
    (hquiet : ∀ e ∈ events, NoPing uniqueId e) (h : ∀ x, xs uniqueId = some x → x.Unheard) :
    (∀ c, (run step events s).1.clientInfos[uniqueId]? = some c →
      ∃ x : Session Address, c = x.record ∧ x.Unheard) ∧
      Uninformed uniqueId (run step events s).2 := by
  induction hfollowed with
  | @nil s xs hserves =>
    refine ⟨?_, .nil⟩
    intro c hc
    have hx := hserves uniqueId
    rw [show s.clientInfos[uniqueId]? = some c from hc] at hx
    cases hxs : xs uniqueId with
    | none =>
      rw [hxs] at hx
      cases hx
    | some x =>
      rw [hxs] at hx
      exact ⟨x, Option.some.inj hx, h x hxs⟩
  | cons hserves hstep _ ih =>
    obtain ⟨he, hrest⟩ := List.forall_mem_cons.mp hquiet
    obtain ⟨hafter, hlog⟩ := Session.unheard_follows (hstep uniqueId) he h
    obtain ⟨hend, hlogs⟩ := ih hrest hafter
    exact ⟨hend, (Uninformed.of_about hlog).append hlogs⟩

/-- A client that registers but does not ping is charged with no loss, however long the server
waits, and its pings carry no result. That holds as long as it does not ping, also if it is removed
and registers again. -/
theorem never_heard (hs : Reachable step (fun _ _ => True) .new s)
    (hunknown : uniqueId ∉ s.clientInfos) (hquiet : ∀ e ∈ events, NoPing uniqueId e) :
    let out := run step events s
    Uninformed uniqueId out.2 ∧ ∀ c, out.1.clientInfos[uniqueId]? = some c →
      c.messageCounterOtherNextExpected = 0 ∧ c.timeOfLastMessageFromOther = -1 ∧
        ∃ sent, c.pingStats = kept sent 0 [] := by
  obtain ⟨xs, hserves⟩ := exists_serves hs
  have hnone : xs uniqueId = none := by
    have hx := hserves uniqueId
    rw [Std.ExtTreeMap.getElem?_eq_none hunknown] at hx
    exact Option.map_eq_none_iff.mp hx.symm
  obtain ⟨hend, hlog⟩ := unheard_followed (followed_run events hserves) hquiet
    fun x hx => absurd (hnone.symm.trans hx) (by simp)
  refine ⟨hlog, ?_⟩
  intro c hc
  obtain ⟨x, rfl, hresults, htime⟩ := hend c hc
  refine ⟨?_, htime, x.written, ?_⟩
  · simp [Session.record, expected, hresults]
  · simp [Session.record, ofResults, hresults]

/-- Client 7 registers and is pinged until it is removed. -/
theorem never_heard_removed :
    let events : List (Event ℕ) := [.message 0 0 1 9 (.welcome (.new 7 250)), .pingTimer 250,
      .timeoutTimer (fun _ => 59999) 59999, .timeoutTimer (fun _ => 60000) 60000]
    Uninformed 7 (run step events .new).2 :=
  (never_heard .start Std.ExtTreeMap.not_mem_empty (by simp [NoPing])).1

end Server

end PacketLossUtils
