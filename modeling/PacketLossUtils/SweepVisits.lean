import Mathlib.Data.Finset.Card
import PacketLossUtils.TimeoutSweep

/-! How often one firing of the server's timeout timer meets the record of a client that stays. -/
namespace PacketLossUtils

open Effect

variable {Address : Type} {uniqueId k : UInt64} {now nowStart : ℤ} {n : ℕ}
  {c ck : ClientInfo Address}

namespace ClientInfo

open NetworkCore

/-- Overdue by two intervals. -/
def TwiceOverdue (now : ℤ) (c : ClientInfo Address) : Prop :=
  c.timeOfLastMessageFromOther ≠ -1 ∧
    c.timeOfLastMessageFromOther + c.interval.toNat ≠ -1 ∧
    now > c.timeOfLastMessageFromOther + 2 * c.interval.toNat + maxTimeLateMs

theorem timeoutTick_of_not_overdue (h : ¬ Overdue now c) (uniqueId : UInt64) :
    c.timeoutTick now uniqueId = (c, []) := if_neg h

theorem losses_timeoutTick (h : Overdue now c) :
    losses uniqueId (c.timeoutTick now uniqueId).2 = 1 := by
  rw [timeoutTick, if_pos h, losses, calls_map_pingStats]
  rfl

theorem losses_timeoutTick_le (now : ℤ) (uniqueId : UInt64) (c : ClientInfo Address) :
    losses uniqueId (c.timeoutTick now uniqueId).2 ≤ 1 := by
  by_cases hover : Overdue now c
  · rw [losses_timeoutTick hover]
  · rw [timeoutTick_of_not_overdue hover]
    exact Nat.zero_le 1

/-- A tick leaves a client overdue that was so by two intervals. -/
theorem twiceOverdue_iff (uniqueId : UInt64) :
    c.TwiceOverdue now ↔ Overdue now c ∧ Overdue now (c.timeoutTick now uniqueId).1 := by
  by_cases hover : Overdue now c
  · have hnext : Overdue now (c.timeoutTick now uniqueId).1 ↔
        c.timeOfLastMessageFromOther + c.interval.toNat ≠ -1 ∧
          now > c.timeOfLastMessageFromOther + c.interval.toNat + c.interval.toNat +
            maxTimeLateMs := by
      rw [timeoutTick, if_pos hover]
      rfl
    rw [hnext, TwiceOverdue]
    obtain ⟨hstarted, -⟩ := id hover
    constructor
    · rintro ⟨-, hstarted', hlate⟩
      exact ⟨hover, hstarted', by omega⟩
    · rintro ⟨-, hstarted', hlate⟩
      exact ⟨hstarted, hstarted', by omega⟩
  · refine iff_of_false ?_ (fun h => hover h.1)
    rintro ⟨hstarted, -, hlate⟩
    exact hover ⟨hstarted, by omega⟩

theorem ticks_of_not_overdue (h : ¬ Overdue now c) (uniqueId : UInt64) (n : ℕ) :
    Trace.run (step uniqueId) (List.replicate n (.timeoutTick now)) c = (c, []) := by
  induction n with
  | zero => rfl
  | succ n ih =>
    rw [List.replicate_succ, Trace.run_cons, step, timeoutTick_of_not_overdue h, ih]
    rfl

/-- For a client that is not so late, any number of ticks is one. -/
theorem ticks_of_not_twiceOverdue (h : ¬ c.TwiceOverdue now) (uniqueId : UInt64) (n : ℕ) :
    Trace.run (step uniqueId) (List.replicate (n + 1) (.timeoutTick now)) c =
      c.timeoutTick now uniqueId := by
  rw [List.replicate_succ, Trace.run_cons, step]
  by_cases hover : Overdue now c
  · have hnext : ¬ Overdue now (c.timeoutTick now uniqueId).1 :=
      fun hnext => h ((twiceOverdue_iff uniqueId).mpr ⟨hover, hnext⟩)
    rw [ticks_of_not_overdue hnext, List.append_nil]
  · rw [timeoutTick_of_not_overdue hover, ticks_of_not_overdue hover]
    rfl

theorem losses_ticks (h : c.TwiceOverdue now) (uniqueId : UInt64) (n : ℕ) :
    2 ≤ losses uniqueId
      (Trace.run (step uniqueId) (List.replicate (n + 2) (.timeoutTick now)) c).2 := by
  obtain ⟨hover, hnext⟩ := (twiceOverdue_iff uniqueId).mp h
  rw [List.replicate_succ, List.replicate_succ, Trace.run_cons, Trace.run_cons, losses_append,
    losses_append, step, losses_timeoutTick hover, step, losses_timeoutTick hnext]
  omega

end ClientInfo

namespace Server

variable {s s' : Server Address} {out : Server Address × List (Effect Address)}

/-- The dead clients that a sweep meets later than the client. -/
def deadAbove (now : ℤ) (uniqueId : UInt64) (s : Server Address) : Finset UInt64 :=
  ((s.clientInfos.toList.filter fun e => uniqueId < e.1 ∧ e.2.Dead now).map Prod.fst).toFinset

theorem mem_deadAbove : k ∈ deadAbove now uniqueId s ↔
    uniqueId < k ∧ ∃ c, s.clientInfos[k]? = some c ∧ c.Dead now := by
  simp only [deadAbove, List.mem_toFinset, List.mem_map, List.mem_filter, decide_eq_true_eq]
  constructor
  · rintro ⟨⟨k', c⟩, ⟨hmem, habove, hdead⟩, rfl⟩
    exact ⟨habove, c, Std.ExtTreeMap.mem_toList_iff_getElem?_eq_some.mp hmem, hdead⟩
  · rintro ⟨habove, c, hc, hdead⟩
    exact ⟨(k, c), ⟨Std.ExtTreeMap.mem_toList_iff_getElem?_eq_some.mpr hc, habove, hdead⟩, rfl⟩

theorem deadAbove_eq_empty_iff : deadAbove now uniqueId s = ∅ ↔
    ∀ k d, s.clientInfos[k]? = some d → uniqueId < k → ¬ d.Dead now := by
  rw [Finset.eq_empty_iff_forall_notMem]
  constructor
  · intro h k d hd habove hdead
    exact h k (mem_deadAbove.mpr ⟨habove, d, hd, hdead⟩)
  · intro h k hk
    obtain ⟨habove, d, hd, hdead⟩ := mem_deadAbove.mp hk
    exact h k d hd habove hdead

theorem deadAbove_erase :
    deadAbove now uniqueId { s with clientInfos := s.clientInfos.erase k } =
      (deadAbove now uniqueId s).erase k := by
  ext k'
  simp only [Finset.mem_erase, mem_deadAbove, TreeMap.getElem?_erase]
  by_cases hk : k = k'
  · simp [hk]
  · simp [hk, Ne.symm hk]

/-- A tick does not change who is dead. -/
theorem deadAbove_tick (hck : s.clientInfos[k]? = some ck) :
    deadAbove now uniqueId
        { s with clientInfos := s.clientInfos.insert k (ck.timeoutTick now k).1 } =
      deadAbove now uniqueId s := by
  have hsame : (ck.timeoutTick now k).1.Dead now ↔ ck.Dead now :=
    (ClientInfo.timeoutTick_kept now k ck).dead_iff
  ext k'
  simp only [mem_deadAbove, TreeMap.getElem?_insert]
  by_cases hk : k = k'
  · subst hk
    simp [hck, hsame]
  · simp [hk]

/-- A record that `out` leaves as `n` ticks at the reading `now` do. -/
def Visits (uniqueId : UInt64) (now : ℤ) (n : ℕ) (c : ClientInfo Address)
    (out : Server Address × List (Effect Address)) : Prop :=
  let ticks := Trace.run (ClientInfo.step uniqueId) (List.replicate n (.timeoutTick now)) c
  out.1.clientInfos[uniqueId]? = some ticks.1 ∧ about uniqueId out.2 = ticks.2

section Loop

variable {restart : Server Address → Server Address × List (Effect Address)}
  {rest : List (UInt64 × ClientInfo Address)}

/-! Other records, in the loop. -/

theorem Visits.dead_other (hk : k ≠ uniqueId) (hdead : (ck.timeoutTick now k).1.Dead now)
    (h : Visits uniqueId now n c (restart { s with clientInfos := s.clientInfos.erase k })) :
    Visits uniqueId now n c (timeoutLoop restart now nowStart ((k, ck) :: rest) s) := by
  have hother := about_eq_nil (ClientInfo.peer_timeoutTick now k ck) hk
  have hclose : (timeoutClose k ck).peer ≠ uniqueId := hk
  rw [Visits, timeoutLoop_dead hdead, clientInfos_startOrStopTimersIfNeeded, about_append, hother,
    about_cons_of_ne hclose]
  exact h

theorem Visits.alive_other (hk : k ≠ uniqueId) (halive : ¬ (ck.timeoutTick now k).1.Dead now)
    (h : Visits uniqueId now n c (timeoutLoop restart now nowStart rest
      { s with clientInfos := s.clientInfos.insert k (ck.timeoutTick now k).1 })) :
    Visits uniqueId now n c (timeoutLoop restart now nowStart ((k, ck) :: rest) s) := by
  have hother := about_eq_nil (ClientInfo.peer_timeoutTick now k ck) hk
  rw [Visits, timeoutLoop_alive halive, about_append, hother]
  exact h

/-- Every restart with a client less meets a client that stays as often as it should. -/
def RestartVisits (uniqueId : UInt64) (now : ℤ)
    (restart : Server Address → Server Address × List (Effect Address)) (s : Server Address) :
    Prop :=
  ∀ s', s'.clientInfos.size < s.clientInfos.size → ∀ c, s'.clientInfos[uniqueId]? = some c →
    ¬ c.Dead now → Visits uniqueId now ((deadAbove now uniqueId s').card + 1) c (restart s')

theorem RestartVisits.tick (h : RestartVisits uniqueId now restart s) (hk : k ∈ s.clientInfos)
    (c : ClientInfo Address) :
    RestartVisits uniqueId now restart { s with clientInfos := s.clientInfos.insert k c } := by
  intro s' hless
  exact h s' (hless.trans_eq (TreeMap.size_insert_of_mem hk))

/-- The restart after the removal of another client. -/
theorem RestartVisits.erase (h : RestartVisits uniqueId now restart s) (hk : k ∈ s.clientInfos)
    (hne : k ≠ uniqueId) (hc : s.clientInfos[uniqueId]? = some c) (halive : ¬ c.Dead now) :
    Visits uniqueId now (((deadAbove now uniqueId s).erase k).card + 1) c
      (restart { s with clientInfos := s.clientInfos.erase k }) := by
  rw [← deadAbove_erase]
  apply h _ (TreeMap.size_erase_lt hk) c _ halive
  rw [TreeMap.getElem?_erase, if_neg hne]
  exact hc

/-- After the client, the loop comes back to it for every dead client that is left. -/
theorem visits_loop_after (nowStart : ℤ) (hrestart : RestartVisits uniqueId now restart s)
    (h : Unvisited now rest s) (hafter : ∀ e ∈ rest, uniqueId < e.1)
    (hc : s.clientInfos[uniqueId]? = some c) (halive : ¬ c.Dead now) :
    Visits uniqueId now (deadAbove now uniqueId s).card c
      (timeoutLoop restart now nowStart rest s) := by
  induction rest generalizing s with
  | nil =>
    have hnone : deadAbove now uniqueId s = ∅ := by
      rw [deadAbove_eq_empty_iff]
      intro k d hd _ hdead
      exact absurd (h.dead k d hd hdead) List.not_mem_nil
    rw [hnone]
    exact ⟨hc, rfl⟩
  | cons entry rest ih =>
    obtain ⟨k, ck⟩ := entry
    have hck := h.entries (k, ck) List.mem_cons_self
    have habove : uniqueId < k := hafter (k, ck) List.mem_cons_self
    have hne : k ≠ uniqueId := (UInt64.ne_of_lt habove).symm
    by_cases hdead : (ck.timeoutTick now k).1.Dead now
    · have hmem : k ∈ deadAbove now uniqueId s :=
        mem_deadAbove.mpr ⟨habove, ck, hck,
          (ClientInfo.timeoutTick_kept now k ck).dead_iff.mp hdead⟩
      have hvisits := hrestart.erase h.mem hne hc halive
      rw [Finset.card_erase_add_one hmem] at hvisits
      exact hvisits.dead_other hne hdead
    · rw [← deadAbove_tick hck]
      apply Visits.alive_other hne hdead
      apply ih (hrestart.tick h.mem _) (h.alive hdead)
      · intro e he
        exact hafter e (List.mem_cons_of_mem _ he)
      · rw [TreeMap.getElem?_insert, if_neg hne]
        exact hc

/-- Up to the client, a removal only postpones it. -/
theorem visits_loop (hrestart : RestartVisits uniqueId now restart s)
    (h : Unvisited now rest s) (hrest : (uniqueId, c) ∈ rest)
    (hc : s.clientInfos[uniqueId]? = some c) (halive : ¬ c.Dead now) :
    Visits uniqueId now ((deadAbove now uniqueId s).card + 1) c
      (timeoutLoop restart now nowStart rest s) := by
  induction rest generalizing s with
  | nil => exact absurd hrest List.not_mem_nil
  | cons entry rest ih =>
    obtain ⟨k, ck⟩ := entry
    have hck := h.entries (k, ck) List.mem_cons_self
    by_cases hk : k = uniqueId
    · subst hk
      obtain rfl := Option.some.inj (hc.symm.trans hck)
      have hkept := ClientInfo.timeoutTick_kept now k c
      have halive' : ¬ (c.timeoutTick now k).1.Dead now := hkept.dead_iff.not.mpr halive
      have hself := about_eq_self (ClientInfo.peer_timeoutTick now k c)
      have hafter : ∀ e ∈ rest, k < e.1 := fun e he => List.rel_of_pairwise_cons h.sorted he
      obtain ⟨hentry, hlog⟩ := visits_loop_after nowStart
        (hrestart.tick h.mem (c.timeoutTick now k).1) (h.alive halive') hafter
        Std.ExtTreeMap.getElem?_insert_self halive'
      rw [deadAbove_tick hck] at hentry hlog
      rw [Visits, timeoutLoop_alive halive', about_append, hself, List.replicate_succ,
        Trace.run_cons]
      exact ⟨hentry, congrArg _ hlog⟩
    · have hmem : (uniqueId, c) ∈ rest := by
        rcases List.mem_cons.mp hrest with he | he
        · exact absurd (congrArg Prod.fst he).symm hk
        · exact he
      have hbelow : k < uniqueId := List.rel_of_pairwise_cons h.sorted hmem
      by_cases hdead : (ck.timeoutTick now k).1.Dead now
      · have hnot : k ∉ deadAbove now uniqueId s := by
          intro hk
          exact UInt64.lt_asymm hbelow (mem_deadAbove.mp hk).1
        have hvisits := hrestart.erase h.mem hk hc halive
        rw [Finset.erase_eq_of_notMem hnot] at hvisits
        exact hvisits.dead_other hk hdead
      · rw [← deadAbove_tick hck]
        apply Visits.alive_other hk hdead
        apply ih (hrestart.tick h.mem _) (h.alive hdead) hmem
        rw [TreeMap.getElem?_insert, if_neg hk]
        exact hc

end Loop

/-- A client that stays is met once, and once more for each dead client with a greater key. -/
theorem visits_timeoutSweep {depth : ℕ} (hdepth : s.clientInfos.size < depth)
    (hc : s.clientInfos[uniqueId]? = some c) (halive : ¬ c.Dead now) :
    Visits uniqueId now ((deadAbove now uniqueId s).card + 1) c
      (timeoutSweep depth (fun _ => now) nowStart s) := by
  induction depth generalizing s c with
  | zero => exact absurd hdepth (Nat.not_lt_zero _)
  | succ depth ih =>
    apply visits_loop _ (unvisited_toList now s) _ hc halive
    · intro s' hless c' hc' halive'
      exact ih (by omega) hc' halive'
    · exact Std.ExtTreeMap.mem_toList_iff_getElem?_eq_some.mpr hc

theorem visits_onTimeoutTimer (nowStart : ℤ) (hc : s.clientInfos[uniqueId]? = some c)
    (halive : ¬ c.Dead now) :
    Visits uniqueId now ((deadAbove now uniqueId s).card + 1) c
      (s.onTimeoutTimer (fun _ => now) nowStart) :=
  visits_timeoutSweep (Nat.lt_succ_self _) hc halive

/-- An overdue client that stays has a loss recorded in every firing. -/
theorem losses_onTimeoutTimer_pos (nowStart : ℤ) (hc : s.clientInfos[uniqueId]? = some c)
    (halive : ¬ c.Dead now) (hover : ClientInfo.Overdue now c) :
    0 < losses uniqueId (s.onTimeoutTimer (fun _ => now) nowStart).2 := by
  obtain ⟨-, hlog⟩ := visits_onTimeoutTimer nowStart hc halive
  rw [← losses_about, hlog, List.replicate_succ, Trace.run_cons, losses_append, ClientInfo.step,
    ClientInfo.losses_timeoutTick hover]
  omega

/-! ### Independence -/

/-- The same server with no other client. -/
def alone (uniqueId : UInt64) (c : ClientInfo Address) (s : Server Address) : Server Address :=
  { s with clientInfos := (∅ : Std.ExtTreeMap UInt64 (ClientInfo Address)).insert uniqueId c }

theorem visits_alone (nowStart : ℤ) (halive : ¬ c.Dead now) (s : Server Address) :
    Visits uniqueId now 1 c ((s.alone uniqueId c).onTimeoutTimer (fun _ => now) nowStart) := by
  have hc : (s.alone uniqueId c).clientInfos[uniqueId]? = some c :=
    Std.ExtTreeMap.getElem?_insert_self
  have hnone : deadAbove now uniqueId (s.alone uniqueId c) = ∅ := by
    rw [deadAbove_eq_empty_iff]
    intro k d hd habove _
    rw [alone, TreeMap.getElem?_insert, if_neg (UInt64.ne_of_lt habove)] at hd
    simp at hd
  have hvisits := visits_onTimeoutTimer nowStart hc halive
  rwa [hnone, Finset.card_empty] at hvisits

/-- The firing does to the client what it would do if there were no other, and records at most one
lost result. -/
def TreatedAlone (now nowStart : ℤ) (uniqueId : UInt64) (c : ClientInfo Address)
    (s : Server Address) : Prop :=
  (s.onTimeoutTimer (fun _ => now) nowStart).1.clientInfos[uniqueId]? =
      ((s.alone uniqueId c).onTimeoutTimer (fun _ => now) nowStart).1.clientInfos[uniqueId]? ∧
    losses uniqueId (s.onTimeoutTimer (fun _ => now) nowStart).2 ≤ 1

/-- A client that stays is treated as if it were alone, unless a client with a greater key dies in
the same firing and the client is late enough for each of the visits to record a loss. -/
theorem treatedAlone_iff (hc : s.clientInfos[uniqueId]? = some c)
    (hstays : uniqueId ∈ (s.onTimeoutTimer (fun _ => now) nowStart).1.clientInfos) :
    TreatedAlone now nowStart uniqueId c s ↔
      (∀ k d, s.clientInfos[k]? = some d → uniqueId < k → ¬ d.Dead now) ∨
        ¬ c.TwiceOverdue now := by
  have halive := alive_of_stays hc hstays
  obtain ⟨hentry, hlog⟩ := visits_onTimeoutTimer nowStart hc halive
  obtain ⟨hentry', -⟩ := visits_alone nowStart halive s
  have hlosses : losses uniqueId (s.onTimeoutTimer (fun _ => now) nowStart).2 =
      losses uniqueId (Trace.run (ClientInfo.step uniqueId)
        (List.replicate ((deadAbove now uniqueId s).card + 1) (.timeoutTick now)) c).2 := by
    rw [← hlog, losses_about]
  have hone : Trace.run (ClientInfo.step uniqueId) (List.replicate 1 (.timeoutTick now)) c =
      c.timeoutTick now uniqueId := Trace.run_singleton _ c
  rw [TreatedAlone, hentry, hentry', hlosses, hone, ← deadAbove_eq_empty_iff]
  constructor
  · rintro ⟨-, hle⟩
    by_contra hnot
    obtain ⟨hdies, htwice⟩ := not_or.mp hnot
    obtain ⟨m, hm⟩ := Nat.exists_eq_succ_of_ne_zero (Finset.card_ne_zero.mpr
      (Finset.nonempty_iff_ne_empty.mpr hdies))
    rw [hm] at hle
    exact absurd hle (not_le.mpr (ClientInfo.losses_ticks (not_not.mp htwice) uniqueId m))
  · intro h
    have hsame : Trace.run (ClientInfo.step uniqueId)
        (List.replicate ((deadAbove now uniqueId s).card + 1) (.timeoutTick now)) c =
          c.timeoutTick now uniqueId := by
      rcases h with hnone | htwice
      · rw [hnone]
        exact hone
      · exact ClientInfo.ticks_of_not_twiceOverdue htwice uniqueId _
    rw [hsame]
    exact ⟨rfl, ClientInfo.losses_timeoutTick_le now uniqueId c⟩

/-- Client 8 has never sent a ping, and that of client 7 came at 59000. -/
def beforeStall : Server ℕ :=
  (Trace.run step [.message 0 0 1 9 (.welcome (.new 8 250)),
    .message 58000 58000 2 9 (.welcome (.new 7 250)),
    .message 59000 59000 2 9 (.ping ⟨7, 0, .initialized⟩)] .new).1

theorem reachable_beforeStall : Trace.Reachable step (fun _ _ => True) .new beforeStall :=
  .step _ (.step _ (.step _ .start trivial) trivial) trivial

theorem mem_beforeStall : (7 : UInt64) ∈ beforeStall.clientInfos := by decide +kernel

/-- At 59500 client 7 is late, and nobody dies. -/
theorem treatedAlone_iff_beforeStall :
    ∃ c, beforeStall.clientInfos[(7 : UInt64)]? = some c ∧
      (TreatedAlone 59500 59500 7 c beforeStall ↔
        (∀ (k : UInt64) (d : ClientInfo ℕ), beforeStall.clientInfos[k]? = some d → 7 < k →
          ¬ d.Dead 59500) ∨ ¬ c.TwiceOverdue 59500) := by
  obtain ⟨c, hc⟩ := TreeMap.mem_iff_exists.mp mem_beforeStall
  exact ⟨c, hc, treatedAlone_iff hc (by decide +kernel)⟩

/-- A firing at 60000 removes client 8, and records two losses for client 7. -/
theorem not_treatedAlone_restart :
    ¬ ∀ s : Server ℕ, Trace.Reachable step (fun _ _ => True) .new s →
      ∀ (now nowStart : ℤ) (uniqueId : UInt64) (c : ClientInfo ℕ),
        s.clientInfos[uniqueId]? = some c →
        uniqueId ∈ (s.onTimeoutTimer (fun _ => now) nowStart).1.clientInfos →
          TreatedAlone now nowStart uniqueId c s := by
  intro h
  obtain ⟨c, hc⟩ := TreeMap.mem_iff_exists.mp mem_beforeStall
  have hlosses :=
    (h beforeStall reachable_beforeStall 60000 60000 7 c hc (by decide +kernel)).2
  revert hlosses
  decide +kernel

end Server

end PacketLossUtils
