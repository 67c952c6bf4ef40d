import PacketLossUtils.ExpectedCounter
import PacketLossUtils.Lib.Simulation
import PacketLossUtils.ServerTimers
import PacketLossUtils.SweepVisits
import PacketLossUtils.Ticks

/-! What a registered client notices of the others. -/
namespace PacketLossUtils.Server

open Effect Trace

variable {Address : Type} {uniqueId k : UInt64} {now nowStart next : ℤ} {c : ClientInfo Address}
  {s t : Server Address} {e : Event Address} {events : List (Event Address)}

/-! ### The timers while a client is registered -/

/-- The ping timer runs whenever a client is registered. -/
def Active (s : Server Address) : Prop := s.clientInfos = ∅ ∨ s.timerPingActive = true

theorem Active.timerPingActive (h : Active s) (hk : k ∈ s.clientInfos) :
    s.timerPingActive = true := by
  rcases h with hempty | hactive
  · rw [hempty] at hk
    exact absurd hk Std.ExtTreeMap.not_mem_empty
  · exact hactive

theorem active_startOrStopTimersIfNeeded (nowStart : ℤ) (s : Server Address) :
    Active (startOrStopTimersIfNeeded nowStart s) := by
  by_cases hsize : 0 < s.clientInfos.size
  · right
    cases hactive : s.timerPingActive <;> simp [startOrStopTimersIfNeeded, hsize, hactive]
  · left
    rw [clientInfos_startOrStopTimersIfNeeded, Std.ExtTreeMap.eq_empty_iff_size_eq_zero]
    omega

theorem active_onPingTimer (now : ℤ) (h : Active s) : Active (s.onPingTimer now).1 := by
  apply run_invariant (I := fun s' _ => Active s') h
  rintro i - s' - h
  rcases h with hempty | hactive
  · left
    rw [Std.ExtTreeMap.eq_empty_iff_size_eq_zero] at hempty ⊢
    simpa [pingRound, Std.ExtTreeMap.size_map] using hempty
  · exact .inr hactive

theorem active_timeoutLoop {restart : Server Address → Server Address × List (Effect Address)}
    (rest : List (UInt64 × ClientInfo Address)) (hrest : ∀ e ∈ rest, e.1 ∈ s.clientInfos)
    (h : Active s) : Active (timeoutLoop restart now nowStart rest s).1 := by
  induction rest generalizing s with
  | nil => exact h
  | cons entry rest ih =>
    obtain ⟨k, ck⟩ := entry
    have hk : k ∈ s.clientInfos := hrest (k, ck) List.mem_cons_self
    by_cases hdead : (ck.timeoutTick now k).1.Dead now
    · rw [timeoutLoop_dead hdead]
      exact active_startOrStopTimersIfNeeded nowStart _
    · rw [timeoutLoop_alive hdead]
      apply ih
      · intro e he
        exact Std.ExtTreeMap.mem_insert.mpr (.inr (hrest e (List.mem_cons_of_mem _ he)))
      · exact .inr (h.timerPingActive hk)

theorem active_receivedMessage (now now' : ℤ) (address : Address) (port : UInt16) (m : Message)
    (h : Active s) : Active (s.receivedMessage now now' address port m).1 := by
  cases m with
  | ping m =>
    cases hc : s.clientInfos[m.uniqueId]? with
    | some c =>
      rw [receivedMessage_ping hc]
      exact .inr (h.timerPingActive (TreeMap.mem_iff_exists.mpr ⟨c, hc⟩))
    | none =>
      rw [receivedMessage_ping_none hc]
      exact h
  | welcome m =>
    rcases receivedMessage_welcome_cases now now' address port m s with
      ⟨-, hignored⟩ | ⟨-, -, hregistered⟩
    · rw [hignored]
      exact h
    · rw [hregistered]
      exact active_startOrStopTimersIfNeeded now' _
  | close m =>
    rw [receivedMessage_close]
    by_cases hm : m.uniqueId ∈ s.clientInfos
    · exact .inr (h.timerPingActive hm)
    · rwa [TreeMap.erase_of_not_mem hm]

theorem active_reachable (h : Reachable step (fun _ _ => True) .new s) : Active s := by
  apply h.invariant (.inl rfl)
  rintro e s - h
  cases e with
  | pingTimer now => exact active_onPingTimer now h
  | timeoutTimer now nowStart =>
    rw [step, onTimeoutTimer_eq]
    exact active_timeoutLoop _ (fun e he => TreeMap.mem_of_mem_toList he) h
  | sigInt => exact active_startOrStopTimersIfNeeded 0 _
  | message now now' address port m => exact active_receivedMessage now now' address port m h

/-- The ping timer runs and is due at `next`. -/
structure DueAt (next : ℤ) (s : Server Address) : Prop where
  timerPingActive : s.timerPingActive = true
  nextPingTime : s.nextPingTime = next

theorem DueAt.startOrStopTimersIfNeeded (h : DueAt next s) (hk : k ∈ s.clientInfos)
    (nowStart : ℤ) : Server.startOrStopTimersIfNeeded nowStart s = s := by
  have hsize : 0 < s.clientInfos.size := by
    rw [size_pos_iff]
    intro hempty
    rw [hempty] at hk
    exact Std.ExtTreeMap.not_mem_empty hk
  simp [Server.startOrStopTimersIfNeeded, hsize, h.timerPingActive]

theorem DueAt.onPingTimer (h : DueAt next s) (now : ℤ) :
    DueAt (now + 250) (s.onPingTimer now).1 := by
  refine ⟨?_, nextPingTime_onPingTimer now s⟩
  apply run_invariant (I := fun (s' : Server Address) _ => s'.timerPingActive = true)
    h.timerPingActive
  intro i _ s' _ hactive
  exact hactive

/-- The timers are left alone, as a client that stays is there all the time. -/
theorem DueAt.timeoutLoop {restart : Server Address → Server Address × List (Effect Address)}
    {rest : List (UInt64 × ClientInfo Address)} (h : DueAt next s)
    (hrestart : ∀ s', DueAt next s' → uniqueId ∈ (restart s').1.clientInfos →
      DueAt next (restart s').1)
    (hstays : uniqueId ∈ (Server.timeoutLoop restart now nowStart rest s).1.clientInfos) :
    DueAt next (Server.timeoutLoop restart now nowStart rest s).1 := by
  induction rest generalizing s with
  | nil => exact h
  | cons entry rest ih =>
    obtain ⟨k, ck⟩ := entry
    by_cases hdead : (ck.timeoutTick now k).1.Dead now
    · rw [timeoutLoop_dead hdead] at hstays ⊢
      rw [clientInfos_startOrStopTimersIfNeeded] at hstays
      have hdue := hrestart { s with clientInfos := s.clientInfos.erase k }
        ⟨h.timerPingActive, h.nextPingTime⟩ hstays
      rw [hdue.startOrStopTimersIfNeeded hstays]
      exact hdue
    · rw [timeoutLoop_alive hdead] at hstays ⊢
      exact ih ⟨h.timerPingActive, h.nextPingTime⟩ hstays

theorem DueAt.timeoutSweep {depth : ℕ} {now : ℕ → ℤ} (h : DueAt next s)
    (hstays : uniqueId ∈ (Server.timeoutSweep depth now nowStart s).1.clientInfos) :
    DueAt next (Server.timeoutSweep depth now nowStart s).1 := by
  induction depth generalizing now s with
  | zero => exact h
  | succ depth ih => exact h.timeoutLoop (fun s' hdue hmem => ih hdue hmem) hstays

theorem DueAt.receivedMessage (h : DueAt next s) (hk : k ∈ s.clientInfos) (now now' : ℤ)
    (address : Address) (port : UInt16) (m : Message) :
    DueAt next (s.receivedMessage now now' address port m).1 := by
  cases m with
  | ping m =>
    cases hc : s.clientInfos[m.uniqueId]? with
    | some c =>
      rw [receivedMessage_ping hc]
      exact ⟨h.timerPingActive, h.nextPingTime⟩
    | none =>
      rw [receivedMessage_ping_none hc]
      exact h
  | welcome m =>
    rcases receivedMessage_welcome_cases now now' address port m s with
      ⟨-, hignored⟩ | ⟨-, -, hregistered⟩
    · rw [hignored]
      exact h
    · have hmem : k ∈ s.clientInfos.insert m.uniqueId
          (.new address port m.pingIntervalInMs now) := Std.ExtTreeMap.mem_insert.mpr (.inr hk)
      generalize s.clientInfos.insert _ _ = clientInfos at hmem hregistered
      have hadded : DueAt next { s with clientInfos } := ⟨h.timerPingActive, h.nextPingTime⟩
      rw [hregistered, hadded.startOrStopTimersIfNeeded hmem]
      exact hadded
  | close m =>
    rw [receivedMessage_close]
    exact ⟨h.timerPingActive, h.nextPingTime⟩

/-- Nothing but the ping timer itself sets the time while a client stays. -/
theorem DueAt.step (h : DueAt next s) (he : ∀ now, e ≠ .pingTimer now)
    (hk : uniqueId ∈ s.clientInfos) (hstays : uniqueId ∈ (s.step e).1.clientInfos) :
    DueAt next (s.step e).1 := by
  cases e with
  | pingTimer now => exact absurd rfl (he now)
  | timeoutTimer now nowStart => exact h.timeoutSweep hstays
  | sigInt => exact absurd hstays (by simp [Server.step, onSigIntReceived])
  | message now now' address port m => exact h.receivedMessage hk now now' address port m

/-! ### The server without the other clients -/

/-- The event is no message of another client. -/
def Concerns (uniqueId : UInt64) (e : Event Address) : Prop :=
  match e with
  | .message _ _ _ _ m => m.getUniqueId = uniqueId
  | _ => True

instance (uniqueId : UInt64) : DecidablePred (Concerns uniqueId : Event Address → Prop)
  | .pingTimer _ => .isTrue trivial
  | .timeoutTimer _ _ => .isTrue trivial
  | .sigInt => .isTrue trivial
  | .message _ _ _ _ m => inferInstanceAs (Decidable (m.getUniqueId = uniqueId))

/-- Should the timeout timer fire, then the clock stands still meanwhile, and no client with a
greater key dies or the client is not overdue by two intervals. -/
def SweptOnce (uniqueId : UInt64) (e : Event Address) (s : Server Address) : Prop :=
  match e with
  | .timeoutTimer now _ => ∃ t, now = (fun _ => t) ∧
      ((∀ k d, s.clientInfos[k]? = some d → uniqueId < k → ¬ d.Dead t) ∨
        ∀ c, s.clientInfos[uniqueId]? = some c → ¬ c.TwiceOverdue t)
  | _ => True

/-- The client stays registered, and is visited once if the clients are swept. -/
structure Undisturbed (uniqueId : UInt64) (e : Event Address) (s : Server Address) : Prop where
  stays : uniqueId ∈ (s.step e).1.clientInfos
  sweptOnce : SweptOnce uniqueId e s

/-- The server `t` is as `s` would be without the other clients. -/
structure Alone (uniqueId : UInt64) (s t : Server Address) : Prop where
  record : ∃ c, s.clientInfos[uniqueId]? = some c ∧ t.clientInfos[uniqueId]? = some c
  others : ∀ k, uniqueId ≠ k → t.clientInfos[k]? = none
  due : ∃ next, DueAt next s ∧ DueAt next t

theorem alone_pingTimer (h : Alone uniqueId s t) (now : ℤ) :
    Alone uniqueId (s.onPingTimer now).1 (t.onPingTimer now).1 ∧
      about uniqueId (s.onPingTimer now).2 = about uniqueId (t.onPingTimer now).2 := by
  obtain ⟨c, hc, hc'⟩ := h.record
  obtain ⟨next, hdue, hdue'⟩ := h.due
  obtain ⟨hentry, hlog⟩ := onPingTimer_entry now hc
  obtain ⟨hentry', hlog'⟩ := onPingTimer_entry now hc'
  rw [hdue.nextPingTime] at hentry hlog
  rw [hdue'.nextPingTime] at hentry' hlog'
  refine ⟨⟨⟨_, hentry, hentry'⟩, ?_, _, hdue.onPingTimer now, hdue'.onPingTimer now⟩,
    hlog.trans hlog'.symm⟩
  intro k hk
  exact (onPingTimer_none now (h.others k hk)).1

/-- The client is visited once on both sides. -/
theorem alone_timeoutTimer (h : Alone uniqueId s t) (now nowStart : ℤ)
    (hstays : uniqueId ∈ (s.onTimeoutTimer (fun _ => now) nowStart).1.clientInfos)
    (honce : SweptOnce uniqueId (.timeoutTimer (fun _ => now) nowStart) s) :
    Alone uniqueId (s.onTimeoutTimer (fun _ => now) nowStart).1
        (t.onTimeoutTimer (fun _ => now) nowStart).1 ∧
      about uniqueId (s.onTimeoutTimer (fun _ => now) nowStart).2 =
        about uniqueId (t.onTimeoutTimer (fun _ => now) nowStart).2 := by
  obtain ⟨c, hc, hc'⟩ := h.record
  obtain ⟨next, hdue, hdue'⟩ := h.due
  have halive := alive_of_stays hc hstays
  have hticks : run (ClientInfo.step uniqueId) (List.replicate
      ((deadAbove now uniqueId s).card + 1) (.timeoutTick now)) c = c.timeoutTick now uniqueId := by
    obtain ⟨t, ht, hnone | hnot⟩ := honce
    · obtain rfl : now = t := congrFun ht 0
      rw [deadAbove_eq_empty_iff.mpr hnone]
      exact run_singleton _ c
    · obtain rfl : now = t := congrFun ht 0
      exact ClientInfo.ticks_of_not_twiceOverdue (hnot c hc) uniqueId _
  have hnone : deadAbove now uniqueId t = ∅ := by
    rw [deadAbove_eq_empty_iff]
    intro k d hd habove _
    cases (h.others k (UInt64.ne_of_lt habove)).symm.trans hd
  obtain ⟨hentry, hlog⟩ := visits_onTimeoutTimer nowStart hc halive
  obtain ⟨hentry', hlog'⟩ := visits_onTimeoutTimer nowStart hc' halive
  rw [hticks] at hentry hlog
  rw [hnone, Finset.card_empty, List.replicate_one, run_singleton] at hentry' hlog'
  refine ⟨⟨⟨_, hentry, hentry'⟩, ?_, next, ?_, ?_⟩, hlog.trans hlog'.symm⟩
  · intro k hk
    exact (onTimeoutTimer_unknown _ nowStart (h.others k hk)).1
  · exact hdue.timeoutSweep hstays
  · exact hdue'.timeoutSweep (TreeMap.mem_iff_exists.mpr ⟨_, hentry'⟩)

/-- A message of another client leaves the client as it was. -/
theorem alone_other (h : Alone uniqueId s t) (now now' : ℤ) (address : Address) (port : UInt16)
    {m : Message} (hm : m.getUniqueId ≠ uniqueId) :
    Alone uniqueId (s.receivedMessage now now' address port m).1 t ∧
      about uniqueId (s.receivedMessage now now' address port m).2 = [] := by
  obtain ⟨c, hc, hc'⟩ := h.record
  obtain ⟨next, hdue, hdue'⟩ := h.due
  obtain ⟨hentry, hlog⟩ := receivedMessage_other now now' address port hm s
  refine ⟨⟨⟨c, hentry.trans hc, hc'⟩, h.others, next, ?_, hdue'⟩, hlog⟩
  exact hdue.receivedMessage (TreeMap.mem_iff_exists.mpr ⟨c, hc⟩) now now' address port m

/-- A message of the client does the same on both sides. -/
theorem alone_message (h : Alone uniqueId s t) (now now' : ℤ) (address : Address) (port : UInt16)
    {m : Message} (hm : m.getUniqueId = uniqueId)
    (hstays : uniqueId ∈ (s.receivedMessage now now' address port m).1.clientInfos) :
    Alone uniqueId (s.receivedMessage now now' address port m).1
        (t.receivedMessage now now' address port m).1 ∧
      about uniqueId (s.receivedMessage now now' address port m).2 =
        about uniqueId (t.receivedMessage now now' address port m).2 := by
  subst hm
  obtain ⟨c, hc, hc'⟩ := h.record
  obtain ⟨next, hdue, hdue'⟩ := h.due
  cases m with
  | ping m =>
    rw [receivedMessage_ping hc, receivedMessage_ping hc']
    refine ⟨⟨⟨_, Std.ExtTreeMap.getElem?_insert_self, Std.ExtTreeMap.getElem?_insert_self⟩, ?_,
      next, ⟨hdue.timerPingActive, hdue.nextPingTime⟩,
      ⟨hdue'.timerPingActive, hdue'.nextPingTime⟩⟩, rfl⟩
    intro k hk
    rw [TreeMap.getElem?_insert, if_neg (show ¬ m.uniqueId = k from hk)]
    exact h.others k hk
  | welcome m =>
    have hknown : ∀ {s : Server Address}, s.clientInfos[m.uniqueId]? = some c →
        s.receivedMessage now now' address port (.welcome m) = (s, []) := by
      intro s hc
      rcases receivedMessage_welcome_cases now now' address port m s with
        ⟨-, hignored⟩ | ⟨hunknown, -⟩
      · exact hignored
      · exact absurd (TreeMap.mem_iff_exists.mpr ⟨c, hc⟩) hunknown
    rw [hknown hc, hknown hc']
    exact ⟨h, rfl⟩
  | close m =>
    rw [receivedMessage_close] at hstays
    exact absurd hstays (by simp [Message.getUniqueId])

/-- While the client is undisturbed, the server is followed by the one that handles only what
concerns it and has no other client. -/
theorem isolation (uniqueId : UInt64) :
    Simulation (step : Event Address → _) step (Undisturbed uniqueId) (Alone uniqueId)
      (fun e _ => if Concerns uniqueId e then [e] else []) (about uniqueId) (about uniqueId) := by
  have hstep : ∀ (e : Event Address) (s t : Server Address), Undisturbed uniqueId e s →
      Alone uniqueId s t →
        let out := run step (if Concerns uniqueId e then [e] else []) t
        Alone uniqueId (s.step e).1 out.1 ∧
          about uniqueId (s.step e).2 = about uniqueId out.2 := by
    rintro e s t ⟨hstays, honce⟩ h
    cases e with
    | pingTimer now =>
      rw [if_pos (show Concerns uniqueId (.pingTimer now) from trivial), run_singleton]
      exact alone_pingTimer h now
    | timeoutTimer now nowStart =>
      rw [if_pos (show Concerns uniqueId (.timeoutTimer now nowStart) from trivial),
        run_singleton]
      obtain ⟨t, rfl, -⟩ := id honce
      exact alone_timeoutTimer h t nowStart hstays honce
    | sigInt => exact absurd hstays (by simp [step, onSigIntReceived])
    | message now now' address port m =>
      by_cases hm : m.getUniqueId = uniqueId
      · rw [if_pos (show Concerns uniqueId (.message now now' address port m) from hm),
          run_singleton]
        exact alone_message h now now' address port hm hstays
      · rw [if_neg (show ¬ Concerns uniqueId (.message now now' address port m) from hm), run_nil]
        exact alone_other h now now' address port hm
  exact ⟨fun e s t he h => (hstep e s t he h).1, fun e s t he h => (hstep e s t he h).2⟩

/-! ### Two runs -/

/-- What one client gets to see of a run. -/
structure SameView (uniqueId : UInt64) (out out' : Server Address × List (Effect Address)) :
    Prop where
  record : out.1.clientInfos[uniqueId]? = out'.1.clientInfos[uniqueId]?
  nextPingTime : out.1.nextPingTime = out'.1.nextPingTime
  effects : about uniqueId out.2 = about uniqueId out'.2

theorem alone_run (h : Alone uniqueId s t) (hevents : Along step (Undisturbed uniqueId) events s) :
    SameView uniqueId (run step events s)
      (run step (events.filter fun e => Concerns uniqueId e) t) := by
  have hrun := (isolation uniqueId).run (fun _ _ => about_append) (fun _ _ => about_append)
    hevents h
  rw [images_filter] at hrun
  obtain ⟨halone, hlog⟩ := hrun
  obtain ⟨c, hc, hc'⟩ := halone.record
  obtain ⟨next, hdue, hdue'⟩ := halone.due
  exact ⟨hc.trans hc'.symm, hdue.nextPingTime.trans hdue'.nextPingTime.symm, hlog⟩

/-- Whatever other clients there are and whatever they send: two runs that agree on the timers and
on the messages of a client that they leave undisturbed agree on its record and on all that is
done for it. -/
theorem isolated {s' : Server Address} {events' : List (Event Address)}
    (hs : Reachable step (fun _ _ => True) .new s)
    (hs' : Reachable step (fun _ _ => True) .new s') (hc : s.clientInfos[uniqueId]? = some c)
    (hc' : s'.clientInfos[uniqueId]? = some c) (hdue : s'.nextPingTime = s.nextPingTime)
    (hsame : events.filter (fun e => Concerns uniqueId e) =
      events'.filter fun e => Concerns uniqueId e)
    (hevents : Along step (Undisturbed uniqueId) events s)
    (hevents' : Along step (Undisturbed uniqueId) events' s') :
    SameView uniqueId (run step events s) (run step events' s') := by
  have hactive := (active_reachable hs).timerPingActive (TreeMap.mem_iff_exists.mpr ⟨c, hc⟩)
  have hactive' := (active_reachable hs').timerPingActive (TreeMap.mem_iff_exists.mpr ⟨c, hc'⟩)
  -- both are followed by the server that has no other client
  have hrecord : (s.alone uniqueId c).clientInfos[uniqueId]? = some c :=
    Std.ExtTreeMap.getElem?_insert_self
  have hothers : ∀ k, uniqueId ≠ k → (s.alone uniqueId c).clientInfos[k]? = none := by
    intro k hk
    rw [alone, TreeMap.getElem?_insert, if_neg hk]
    simp
  have hdueAlone : DueAt s.nextPingTime (s.alone uniqueId c) := ⟨hactive, rfl⟩
  have hview := alone_run ⟨⟨c, hc, hrecord⟩, hothers, _, ⟨hactive, rfl⟩, hdueAlone⟩ hevents
  have hview' := alone_run ⟨⟨c, hc', hrecord⟩, hothers, _, ⟨hactive', hdue⟩, hdueAlone⟩ hevents'
  rw [← hsame] at hview'
  exact ⟨hview.record.trans hview'.record.symm, hview.nextPingTime.trans hview'.nextPingTime.symm,
    hview.effects.trans hview'.effects.symm⟩

/-- A second client registers and leaves while client 7 is pinged and watched. -/
theorem isolated_second_client :
    let s : Server ℕ := (Server.new.step (.message 0 0 1 9 (.welcome (.new 7 250)))).1
    let sweep : Event ℕ := .timeoutTimer (fun _ => 300) 300
    SameView 7 (run step [.pingTimer 250, sweep] s)
      (run step [.message 10 10 2 9 (.welcome (.new 8 250)), .pingTimer 250,
        .message 260 260 2 9 (.close ⟨8, CloseMessage.reasonQuit⟩), sweep] s) := by
  intro s sweep
  have hreach : Reachable step (fun _ _ => True) (.new : Server ℕ) s := .step _ .start trivial
  have hunheard : ∀ {s : Server ℕ}, s.clientInfos[(7 : UInt64)]?.map
      ClientInfo.timeOfLastMessageFromOther = some (-1) → SweptOnce 7 sweep s := by
    intro s h
    refine ⟨300, rfl, .inr ?_⟩
    rintro c hc ⟨hstarted, -⟩
    rw [hc] at h
    exact hstarted (Option.some.inj h)
  obtain ⟨c, hc⟩ := TreeMap.mem_iff_exists.mp
    (show (7 : UInt64) ∈ s.clientInfos by decide +kernel)
  refine isolated hreach hreach hc hc rfl rfl ?_ ?_
  · exact ⟨⟨by decide +kernel, trivial⟩, ⟨by decide +kernel, hunheard (by decide +kernel)⟩, trivial⟩
  · exact ⟨⟨by decide +kernel, trivial⟩, ⟨by decide +kernel, trivial⟩,
      ⟨by decide +kernel, trivial⟩, ⟨by decide +kernel, hunheard (by decide +kernel)⟩, trivial⟩

end PacketLossUtils.Server
