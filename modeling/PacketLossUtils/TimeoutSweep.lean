import PacketLossUtils.ServerRecord

/-! One firing of the server's timeout timer during which the clock stands still. -/
namespace PacketLossUtils

open Effect

variable {Address : Type} {uniqueId k : UInt64} {now nowStart : ℤ} {c c' : ClientInfo Address}
  {log : List (Effect Address)}

namespace ClientInfo

/-- What a sweep leaves as it is in a record that stays. -/
structure Kept (c c' : ClientInfo Address) : Prop where
  address : c'.address = c.address
  port : c'.port = c.port
  interval : c'.interval = c.interval
  messageCounter : c'.messageCounter = c.messageCounter
  intervalCounter : c'.intervalCounter = c.intervalCounter
  timeOfLastRealMessageFromOther :
    c'.timeOfLastRealMessageFromOther = c.timeOfLastRealMessageFromOther

theorem Kept.refl (c : ClientInfo Address) : Kept c c := ⟨rfl, rfl, rfl, rfl, rfl, rfl⟩

theorem Kept.trans {c'' : ClientInfo Address} (h : Kept c c') (h' : Kept c' c'') : Kept c c'' :=
  ⟨h'.1.trans h.1, h'.2.trans h.2, h'.3.trans h.3, h'.4.trans h.4, h'.5.trans h.5,
    h'.6.trans h.6⟩

theorem Kept.dead_iff (h : Kept c c') : c'.Dead now ↔ c.Dead now := by
  rw [Dead, Dead, h.timeOfLastRealMessageFromOther]

theorem timeoutTick_kept (now : ℤ) (uniqueId : UInt64) (c : ClientInfo Address) :
    Kept c (c.timeoutTick now uniqueId).1 := by
  rw [timeoutTick]
  split
  · exact ⟨rfl, rfl, rfl, rfl, rfl, rfl⟩
  · exact .refl c

@[simp] theorem datagrams_timeoutTick (now : ℤ) (uniqueId : UInt64) (c : ClientInfo Address) :
    datagrams uniqueId (c.timeoutTick now uniqueId).2 = [] := by
  rw [timeoutTick]
  split
  · exact datagrams_map_pingStats _
  · rfl

theorem run_timeoutTicks_kept {R : ℤ → Prop} {events : List Event} (uniqueId : UInt64)
    (hevents : ∀ x ∈ events, ∃ t, R t ∧ x = .timeoutTick t) (c : ClientInfo Address) :
    Kept c (Trace.run (step uniqueId) events c).1 ∧
      datagrams uniqueId (Trace.run (step uniqueId) events c).2 = [] := by
  apply Trace.run_invariant (I := fun (c' : ClientInfo Address) log =>
    Kept c c' ∧ datagrams uniqueId log = []) ⟨.refl c, rfl⟩
  rintro x hx c' log ⟨hkept, hlog⟩
  obtain ⟨t, _, rfl⟩ := hevents x hx
  refine ⟨hkept.trans (timeoutTick_kept t uniqueId c'), ?_⟩
  rw [datagrams_append, hlog, step, datagrams_timeoutTick]
  rfl

end ClientInfo

namespace Server

variable {s : Server Address}

/-- The Close of a dead client, and where it goes. -/
def timeoutDatagram (uniqueId : UInt64) (c : ClientInfo Address) : Message × Address × UInt16 :=
  (.close ⟨uniqueId, CloseMessage.reasonTimeout⟩, c.address, c.port)

theorem datagrams_timeoutClose (uniqueId : UInt64) (c : ClientInfo Address) :
    datagrams uniqueId [timeoutClose uniqueId c] = [timeoutDatagram uniqueId c] :=
  datagrams_cons_write rfl

/-! ### One record -/

theorem Swept.kept {R : ℤ → Prop} (h : Swept uniqueId R (some c) (some c') log) :
    ClientInfo.Kept c c' ∧ datagrams uniqueId log = [] := by
  obtain ⟨events, c₁, log', hevents, hrun, ⟨hstays, rfl⟩ | ⟨hgone, _⟩⟩ := h.run
  · obtain rfl := Option.some.inj hstays
    have hkept := ClientInfo.run_timeoutTicks_kept uniqueId hevents c
    rwa [hrun] at hkept
  · cases hgone

theorem Swept.removed {R : ℤ → Prop} (h : Swept uniqueId R (some c) none log) :
    (∃ t, R t ∧ c.Dead t) ∧ datagrams uniqueId log = [timeoutDatagram uniqueId c] := by
  obtain ⟨events, c', log', hevents, hrun, ⟨hstays, _⟩ | ⟨_, ⟨t, ht, hdead⟩, rfl⟩⟩ := h.run
  · cases hstays
  · obtain ⟨hkept, hlog⟩ := ClientInfo.run_timeoutTicks_kept uniqueId hevents c
    rw [hrun] at hkept hlog
    refine ⟨⟨t, ht, hkept.dead_iff.mp hdead⟩, ?_⟩
    rw [datagrams_append, hlog, datagrams_timeoutClose, timeoutDatagram, hkept.address, hkept.port]
    rfl

theorem Swept.unknown {R : ℤ → Prop} {after : Option (ClientInfo Address)}
    (h : Swept uniqueId R none after log) : after = none ∧ log = [] := by
  cases h
  exact ⟨rfl, rfl⟩

/-! A firing, at whatever readings of the clock. -/

theorem onTimeoutTimer_stays (now : ℕ → ℤ) (nowStart : ℤ)
    (hc : s.clientInfos[uniqueId]? = some c)
    (hc' : (s.onTimeoutTimer now nowStart).1.clientInfos[uniqueId]? = some c') :
    ClientInfo.Kept c c' ∧ datagrams uniqueId (s.onTimeoutTimer now nowStart).2 = [] := by
  have hswept := onTimeoutTimer_entry now nowStart s uniqueId
  rw [hc, hc'] at hswept
  rw [← datagrams_about]
  exact hswept.kept

theorem onTimeoutTimer_gone (now : ℕ → ℤ) (nowStart : ℤ)
    (hc : s.clientInfos[uniqueId]? = some c)
    (hc' : (s.onTimeoutTimer now nowStart).1.clientInfos[uniqueId]? = none) :
    (∃ i, c.Dead (now i)) ∧
      datagrams uniqueId (s.onTimeoutTimer now nowStart).2 = [timeoutDatagram uniqueId c] := by
  have hswept := onTimeoutTimer_entry now nowStart s uniqueId
  rw [hc, hc'] at hswept
  obtain ⟨⟨_, ⟨i, rfl⟩, hdead⟩, hlog⟩ := hswept.removed
  rw [← datagrams_about]
  exact ⟨⟨i, hdead⟩, hlog⟩

theorem onTimeoutTimer_unknown (now : ℕ → ℤ) (nowStart : ℤ)
    (hc : s.clientInfos[uniqueId]? = none) :
    (s.onTimeoutTimer now nowStart).1.clientInfos[uniqueId]? = none ∧
      datagrams uniqueId (s.onTimeoutTimer now nowStart).2 = [] := by
  have hswept := onTimeoutTimer_entry now nowStart s uniqueId
  rw [hc] at hswept
  obtain ⟨hafter, hlog⟩ := hswept.unknown
  rw [← datagrams_about, hlog]
  exact ⟨hafter, datagrams_nil⟩

/-! ### No dead client stays -/

/-- No client is dead. -/
def NoneDead (now : ℤ) (s : Server Address) : Prop :=
  ∀ (uniqueId : UInt64) (c : ClientInfo Address),
    s.clientInfos[uniqueId]? = some c → ¬ c.Dead now

theorem noneDead_startOrStopTimersIfNeeded :
    NoneDead now (startOrStopTimersIfNeeded nowStart s) ↔ NoneDead now s := by
  rw [NoneDead, NoneDead, clientInfos_startOrStopTimersIfNeeded]

section Loop

variable {restart : Server Address → Server Address × List (Effect Address)}
  {rest : List (UInt64 × ClientInfo Address)}

/-- The clients a loop has still to visit, in the order of their keys. All the dead ones are among
them, since the loop leaves what comes after the first of them to the restart. -/
structure Unvisited (now : ℤ) (rest : List (UInt64 × ClientInfo Address)) (s : Server Address) :
    Prop where
  sorted : rest.Pairwise fun a b => a.1 < b.1
  entries : ∀ e ∈ rest, s.clientInfos[e.1]? = some e.2
  dead : ∀ (id : UInt64) (c : ClientInfo Address),
    s.clientInfos[id]? = some c → c.Dead now → (id, c) ∈ rest

theorem unvisited_toList (now : ℤ) (s : Server Address) :
    Unvisited now s.clientInfos.toList s where
  sorted := TreeMap.sorted_toList s.clientInfos
  entries _ he := Std.ExtTreeMap.mem_toList_iff_getElem?_eq_some.mp he
  dead _ _ hc _ := Std.ExtTreeMap.mem_toList_iff_getElem?_eq_some.mpr hc

theorem Unvisited.mem (h : Unvisited now ((k, c) :: rest) s) : k ∈ s.clientInfos :=
  TreeMap.mem_iff_exists.mpr ⟨c, h.entries (k, c) List.mem_cons_self⟩

/-- A client that stays is ticked, and the loop goes on. -/
theorem Unvisited.alive (h : Unvisited now ((k, c) :: rest) s)
    (hc : ¬ (c.timeoutTick now k).1.Dead now) :
    Unvisited now rest
      { s with clientInfos := s.clientInfos.insert k (c.timeoutTick now k).1 } where
  sorted := h.sorted.of_cons
  entries := by
    intro e he
    have hne : k ≠ e.1 := UInt64.ne_of_lt (List.rel_of_pairwise_cons h.sorted he)
    rw [TreeMap.getElem?_insert, if_neg hne]
    exact h.entries e (List.mem_cons_of_mem _ he)
  dead := by
    intro id c' hc' hdead
    rw [TreeMap.getElem?_insert] at hc'
    split at hc'
    · obtain rfl := Option.some.inj hc'
      exact absurd hdead hc
    · rename_i hne
      rcases List.mem_cons.mp (h.dead id c' hc' hdead) with he | he
      · exact absurd (congrArg Prod.fst he).symm hne
      · exact he

theorem noneDead_timeoutLoop
    (hrestart : ∀ s', s'.clientInfos.size < s.clientInfos.size → NoneDead now (restart s').1)
    (h : Unvisited now rest s) : NoneDead now (timeoutLoop restart now nowStart rest s).1 := by
  induction rest generalizing s with
  | nil =>
    intro id c hc hdead
    exact absurd (h.dead id c hc hdead) List.not_mem_nil
  | cons entry rest ih =>
    obtain ⟨k, c⟩ := entry
    by_cases hc : (c.timeoutTick now k).1.Dead now
    · rw [timeoutLoop_dead hc]
      exact noneDead_startOrStopTimersIfNeeded.mpr (hrestart _ (TreeMap.size_erase_lt h.mem))
    · rw [timeoutLoop_alive hc]
      apply ih _ (h.alive hc)
      intro s' hs'
      exact hrestart s' (hs'.trans_eq (TreeMap.size_insert_of_mem h.mem))

/-- A loop that meets a dead client leaves the timers as the helper sets them. -/
theorem timeoutLoop_timers (rest : List (UInt64 × ClientInfo Address))
    (hdead : ∃ e ∈ rest, e.2.Dead now) (s : Server Address) :
    ∃ s', (timeoutLoop restart now nowStart rest s).1 = startOrStopTimersIfNeeded nowStart s' := by
  induction rest generalizing s with
  | nil =>
    obtain ⟨e, he, _⟩ := hdead
    exact absurd he List.not_mem_nil
  | cons entry rest ih =>
    obtain ⟨k, c⟩ := entry
    have hkept := ClientInfo.timeoutTick_kept now k c
    by_cases hc : (c.timeoutTick now k).1.Dead now
    · rw [timeoutLoop_dead hc]
      exact ⟨_, rfl⟩
    · rw [timeoutLoop_alive hc]
      apply ih
      obtain ⟨e, he, hdead⟩ := hdead
      rcases List.mem_cons.mp he with rfl | he
      · exact absurd (hkept.dead_iff.mpr hdead) hc
      · exact ⟨e, he, hdead⟩

end Loop

theorem noneDead_timeoutSweep {depth : ℕ} (s : Server Address)
    (hdepth : s.clientInfos.size < depth) :
    NoneDead now (timeoutSweep depth (fun _ => now) nowStart s).1 := by
  induction depth generalizing s with
  | zero => exact absurd hdepth (Nat.not_lt_zero _)
  | succ depth ih =>
    apply noneDead_timeoutLoop _ (unvisited_toList now s)
    intro s' hless
    exact ih s' (by omega)

theorem alive_of_stays (hc : s.clientInfos[uniqueId]? = some c)
    (hstays : uniqueId ∈ (s.onTimeoutTimer (fun _ => now) nowStart).1.clientInfos) :
    ¬ c.Dead now := by
  obtain ⟨c', hc'⟩ := TreeMap.mem_iff_exists.mp hstays
  obtain ⟨hkept, -⟩ := onTimeoutTimer_stays _ nowStart hc hc'
  exact hkept.dead_iff.not.mp (noneDead_timeoutSweep s (Nat.lt_succ_self _) uniqueId c' hc')

theorem stopped_of_empty (h : (startOrStopTimersIfNeeded nowStart s).clientInfos = ∅) :
    (startOrStopTimersIfNeeded nowStart s).timerPingActive = false ∧
      (startOrStopTimersIfNeeded nowStart s).timerTimeoutActive = false := by
  rw [clientInfos_startOrStopTimersIfNeeded] at h
  simp [startOrStopTimersIfNeeded, h]

/-- A firing at the reading `now` that goes from `s` to `out`: it comes to an end, removes the
dead clients and no others, and tells each of them so. -/
structure RemovesDead (now nowStart : ℤ) (s : Server Address)
    (out : Server Address × List (Effect Address)) : Prop where
  /-- The nested calls are no more than the clients. -/
  ends : ∀ depth, s.clientInfos.size < depth →
    timeoutSweep depth (fun _ => now) nowStart s = out
  recursion : out = timeoutLoop (onTimeoutTimer (fun _ => now) nowStart) now nowStart
    s.clientInfos.toList s
  stays_iff : ∀ uniqueId : UInt64, uniqueId ∈ out.1.clientInfos ↔
    ∃ c, s.clientInfos[uniqueId]? = some c ∧ ¬ c.Dead now
  closes : ∀ (uniqueId : UInt64) (c : ClientInfo Address), s.clientInfos[uniqueId]? = some c →
    datagrams uniqueId out.2 = if c.Dead now then [timeoutDatagram uniqueId c] else []
  closes_unknown : ∀ uniqueId : UInt64, uniqueId ∉ s.clientInfos → datagrams uniqueId out.2 = []
  kept : ∀ (uniqueId : UInt64) (c c' : ClientInfo Address), s.clientInfos[uniqueId]? = some c →
    out.1.clientInfos[uniqueId]? = some c' → c.Kept c'
  timers : (∃ (uniqueId : UInt64) (c : ClientInfo Address),
      s.clientInfos[uniqueId]? = some c ∧ c.Dead now) →
    out.1.clientInfos = ∅ → out.1.timerPingActive = false ∧ out.1.timerTimeoutActive = false

/-- In any state, with the dead clients anywhere among the others. -/
theorem onTimeoutTimer_removesDead (now nowStart : ℤ) (s : Server Address) :
    RemovesDead now nowStart s (s.onTimeoutTimer (fun _ => now) nowStart) := by
  generalize hout : s.onTimeoutTimer (fun _ => now) nowStart = out
  have hequation : out = timeoutLoop (onTimeoutTimer (fun _ => now) nowStart) now nowStart
      s.clientInfos.toList s :=
    hout.symm.trans (onTimeoutTimer_eq _ nowStart s)
  have hnone : NoneDead now out.1 := hout ▸ noneDead_timeoutSweep s (Nat.lt_succ_self _)
  -- a record that is gone was dead, and one that stays is not
  have hgone : ∀ {id : UInt64} {c : ClientInfo Address}, s.clientInfos[id]? = some c →
      out.1.clientInfos[id]? = none →
        c.Dead now ∧ datagrams id out.2 = [timeoutDatagram id c] := by
    intro id c hc hc'
    subst hout
    obtain ⟨⟨_, hdead⟩, hlog⟩ := onTimeoutTimer_gone _ nowStart hc hc'
    exact ⟨hdead, hlog⟩
  have hstays : ∀ {id : UInt64} {c c' : ClientInfo Address}, s.clientInfos[id]? = some c →
      out.1.clientInfos[id]? = some c' →
        ¬ c.Dead now ∧ c.Kept c' ∧ datagrams id out.2 = [] := by
    intro id c c' hc hc'
    subst hout
    obtain ⟨hkept, hlog⟩ := onTimeoutTimer_stays _ nowStart hc hc'
    exact ⟨fun hdead => hnone id c' hc' (hkept.dead_iff.mpr hdead), hkept, hlog⟩
  have hunknown : ∀ {id : UInt64}, s.clientInfos[id]? = none →
      out.1.clientInfos[id]? = none ∧ datagrams id out.2 = [] := by
    intro id hc
    subst hout
    exact onTimeoutTimer_unknown _ nowStart hc
  refine ⟨?_, hequation, ?_, ?_, ?_, fun id c c' hc hc' => (hstays hc hc').2.1, ?_⟩
  · intro depth hdepth
    exact (timeoutSweep_eq _ nowStart s hdepth (Nat.lt_succ_self _)).trans hout
  · intro id
    constructor
    · intro hmem
      obtain ⟨c', hc'⟩ := TreeMap.mem_iff_exists.mp hmem
      cases hc : s.clientInfos[id]? with
      | none => cases (hunknown hc).1.symm.trans hc'
      | some c => exact ⟨c, rfl, (hstays hc hc').1⟩
    · rintro ⟨c, hc, halive⟩
      cases hc' : out.1.clientInfos[id]? with
      | none => exact absurd (hgone hc hc').1 halive
      | some c' => exact TreeMap.mem_iff_exists.mpr ⟨c', hc'⟩
  · intro id c hc
    cases hc' : out.1.clientInfos[id]? with
    | none =>
      obtain ⟨hdead, hlog⟩ := hgone hc hc'
      rw [if_pos hdead, hlog]
    | some c' =>
      obtain ⟨halive, _, hlog⟩ := hstays hc hc'
      rw [if_neg halive, hlog]
  · intro id hid
    exact (hunknown (Std.ExtTreeMap.getElem?_eq_none hid)).2
  · rintro ⟨id, c, hc, hdead⟩ hempty
    have hmem := Std.ExtTreeMap.mem_toList_iff_getElem?_eq_some.mpr hc
    rw [hequation] at hempty ⊢
    obtain ⟨s', hs'⟩ := timeoutLoop_timers s.clientInfos.toList ⟨(id, c), hmem, hdead⟩ s
    rw [hs'] at hempty ⊢
    exact stopped_of_empty hempty

end Server

end PacketLossUtils
