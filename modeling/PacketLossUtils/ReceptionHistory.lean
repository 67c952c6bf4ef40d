import PacketLossUtils.NetworkCore
import PacketLossUtils.PingStatsHistory

/-! The receiving side is determined by the calls made on its statistics. -/
namespace PacketLossUtils

open PingStats

namespace Reception

variable {r : Reception} {counter : UInt64} {xs ys : List Call}

/-- Each `addResult` goes with one increment of the expected counter. -/
def after (calls : List Call) (r : Reception) : Reception :=
  ⟨r.messageCounterOtherNextExpected + UInt64.ofNat (results calls).length,
    calls.foldl apply r.pingStats⟩

@[simp] theorem after_nil (r : Reception) : r.after [] = r := by
  simp [after]

theorem after_append (xs ys : List Call) (r : Reception) :
    r.after (xs ++ ys) = (r.after xs).after ys := by
  simp [after, UInt64.ofNat_add, UInt64.add_assoc]

theorem markLost_after (r : Reception) : r.markLost.1 = r.after r.markLost.2 := rfl

theorem results_replicate (n : ℕ) (b : Bool) :
    results (List.replicate n (.addResult b)) = List.replicate n b := by
  simp [results]

/-- The loop runs once per missing message. -/
theorem markMissing_calls (counter : UInt64) (r : Reception) :
    (r.markMissing counter).2 = List.replicate
      (counter.toNat - r.messageCounterOtherNextExpected.toNat) (.addResult false) := by
  fun_induction markMissing counter r with
  | case1 r h rest ih =>
    have hlt := UInt64.lt_iff_toNat_lt.mp h
    have hsucc : counter.toNat - r.messageCounterOtherNextExpected.toNat =
        counter.toNat - r.markLost.1.messageCounterOtherNextExpected.toNat + 1 := by
      have hc := counter.toNat_lt
      simp only [markLost, UInt64.toNat_add, UInt64.reduceToNat]
      omega
    rw [hsucc, List.replicate_succ, ← ih]
    rfl
  | case2 r h =>
    have hle := UInt64.le_iff_toNat_le.mp (UInt64.not_lt.mp h)
    rw [Nat.sub_eq_zero_of_le hle]
    rfl

theorem markMissing_after (counter : UInt64) (r : Reception) :
    (r.markMissing counter).1 = r.after (r.markMissing counter).2 := by
  fun_induction markMissing counter r with
  | case1 r h rest ih => rw [ih, after_append, ← markLost_after]
  | case2 r h => simp

theorem markSeen_after (counter : UInt64) (r : Reception) :
    (r.markSeen counter).1 = r.after (r.markSeen counter).2 := by
  rw [markSeen, after_append, ← markMissing_after]
  rfl

theorem markSeen_calls (counter : UInt64) (r : Reception) :
    (r.markSeen counter).2 = List.replicate
      (counter.toNat - r.messageCounterOtherNextExpected.toNat) (.addResult false) ++
        [.addResult true, .addPacketReceived] := by
  rw [markSeen, markMissing_calls]

theorem results_markSeen (counter : UInt64) (r : Reception) :
    results (r.markSeen counter).2 = List.replicate
      (counter.toNat - r.messageCounterOtherNextExpected.toNat) false ++ [true] := by
  simp [markSeen_calls, results_replicate]

/-- Only an accepted ping is counted as received. -/
theorem packetsReceived_markSeen (counter : UInt64) (r : Reception) :
    (r.markSeen counter).1.pingStats.packetsReceived = r.pingStats.packetsReceived + 1 := by
  have hmissing : (r.markMissing counter).1.pingStats.packetsReceived =
      r.pingStats.packetsReceived := by
    fun_induction markMissing counter r with
    | case1 r h rest ih => exact ih
    | case2 r h => rfl
  rw [← hmissing]
  rfl

/-- After an accepted ping the next number is expected. -/
theorem expected_markSeen {counter : UInt64}
    (hseen : ¬ r.messageCounterOtherNextExpected > counter) :
    (r.markSeen counter).1.messageCounterOtherNextExpected = counter + 1 := by
  have hle := UInt64.le_iff_toNat_le.mp (UInt64.not_lt.mp hseen)
  have hc := counter.toNat_lt
  rw [markSeen_after, after, results_markSeen, List.length_append, List.length_replicate,
    ← UInt64.toNat_inj]
  simp only [List.length_singleton, UInt64.toNat_add, UInt64.toNat_ofNat', UInt64.reduceToNat]
  omega

/-- Number `e` is expected and number `e + d` comes. Without a wrap it is accepted. -/
theorem accepts {start : UInt64} {e d : ℕ}
    (hexpected : r.messageCounterOtherNextExpected = start + UInt64.ofNat e)
    (hwrap : d = 0 ∨ start.toNat + (e + d) < 2 ^ 64) :
    ¬ r.messageCounterOtherNextExpected > start + UInt64.ofNat (e + d) ∧
      results (r.markSeen (start + UInt64.ofNat (e + d))).2 = List.replicate d false ++ [true] := by
  rw [results_markSeen, hexpected, gt_iff_lt, UInt64.not_lt]
  rcases hwrap with rfl | hlt
  · exact ⟨UInt64.le_refl _, by simp⟩
  · have htoNat : ∀ i ≤ e + d, (start + UInt64.ofNat i).toNat = start.toNat + i := by
      intro i hi
      rw [UInt64.toNat_add, UInt64.toNat_ofNat_of_lt' (by simp only [UInt64.size]; omega),
        Nat.mod_eq_of_lt (by omega)]
    rw [UInt64.le_iff_toNat_le, htoNat e (by omega), htoNat (e + d) le_rfl]
    refine ⟨by omega, ?_⟩
    congr 2
    omega

/-- A new record. -/
def fresh : Reception := ⟨0, .initialized⟩

theorem pingStats_fresh_after (calls : List Call) : (fresh.after calls).pingStats = replay calls :=
  rfl

theorem expected_fresh_after {calls : List Call} (hlt : (results calls).length < 2 ^ 64) :
    (fresh.after calls).messageCounterOtherNextExpected.toNat = (results calls).length := by
  simpa [after, fresh] using hlt

end Reception

/-! ### Accounts -/

/-- The calls a receiver makes, beside the counters of the pings it accepts. The 64-bit
arithmetic is left out. -/
inductive Accounts : List Call → List UInt64 → Prop
  | start : Accounts [] []
  | sent {calls accepted} : Accounts calls accepted → Accounts (calls ++ [.addPacketSent]) accepted
  | lost {calls accepted} :
      Accounts calls accepted → Accounts (calls ++ [.addResult false]) accepted
  | seen {calls accepted} {counter : UInt64} :
      Accounts calls accepted → (results calls).length ≤ counter.toNat →
      Accounts (calls ++ (List.replicate (counter.toNat - (results calls).length)
        (.addResult false) ++ [.addResult true, .addPacketReceived])) (accepted ++ [counter])

namespace Accounts

variable {calls : List Call} {accepted : List UInt64}

theorem results_seen (calls : List Call) (n : ℕ) :
    results (calls ++ (List.replicate n (.addResult false) ++
      [.addResult true, .addPacketReceived])) =
        results calls ++ List.replicate n false ++ [true] := by
  simp [Reception.results_replicate]

theorem getElem?_append_false (h : List Bool) (i : ℕ) :
    (h ++ [false])[i]? = some true ↔ h[i]? = some true := by
  rw [List.getElem?_append]
  split
  · rfl
  · rename_i hi
    rw [List.getElem?_eq_none (Nat.not_lt.mp hi)]
    cases i - h.length <;> simp

/-- A result is `true` exactly if the ping of that number was accepted. -/
theorem result_iff (h : Accounts calls accepted) (i : ℕ) :
    (results calls)[i]? = some true ↔ ∃ counter ∈ accepted, counter.toNat = i := by
  induction h with
  | start => simp
  | sent _ ih => simpa using ih
  | lost _ ih => simpa [getElem?_append_false] using ih
  | @seen calls accepted counter _ hle ih =>
    rw [results_seen]
    have hlen : (results calls ++ List.replicate (counter.toNat - (results calls).length)
        false).length = counter.toNat := by
      simp only [List.length_append, List.length_replicate]
      omega
    have hnew : (∃ c ∈ accepted ++ [counter], c.toNat = i) ↔
        (results calls)[i]? = some true ∨ counter.toNat = i := by
      rw [ih]
      simp only [List.mem_append, List.mem_singleton]
      constructor
      · rintro ⟨c, hc | rfl, rfl⟩
        · exact Or.inl ⟨c, hc, rfl⟩
        · exact Or.inr rfl
      · rintro (⟨c, hc, rfl⟩ | rfl)
        · exact ⟨c, Or.inl hc, rfl⟩
        · exact ⟨counter, Or.inr rfl, rfl⟩
    rw [hnew]
    rcases Nat.lt_trichotomy i counter.toNat with hi | rfl | hi
    · rw [List.getElem?_append_left (by omega)]
      rcases Nat.lt_or_ge i (results calls).length with hold | hgap
      · rw [List.getElem?_append_left hold]
        simp [Nat.ne_of_gt hi]
      · rw [List.getElem?_append_right hgap, List.getElem?_eq_none hgap]
        simp [List.getElem?_replicate, Nat.ne_of_gt hi]
    · rw [List.getElem?_append_right (by omega), hlen]
      simp
    · have hend : (results calls ++ List.replicate (counter.toNat - (results calls).length)
          false ++ [true]).length ≤ i := by
        rw [List.length_append, hlen]
        exact hi
      rw [List.getElem?_eq_none hend, List.getElem?_eq_none (by omega)]
      simp [Nat.ne_of_lt hi]

/-- Accepted counters increase, and each of them has its result. -/
theorem increasing (h : Accounts calls accepted) :
    accepted.Pairwise (fun a b => a.toNat < b.toNat) ∧
      ∀ counter ∈ accepted, counter.toNat < (results calls).length := by
  induction h with
  | start => simp
  | sent _ ih => simpa using ih
  | lost _ ih =>
    refine ⟨ih.1, fun c hc => ?_⟩
    have := ih.2 c hc
    simp
    omega
  | @seen calls accepted counter _ hle ih =>
    have hlt : ∀ c ∈ accepted, c.toNat < counter.toNat := fun c hc => (ih.2 c hc).trans_le hle
    refine ⟨?_, ?_⟩
    · rw [List.pairwise_append]
      exact ⟨ih.1, by simp, by simpa using hlt⟩
    · rw [results_seen]
      intro c hc
      simp only [List.length_append, List.length_replicate, List.length_singleton]
      rcases List.mem_append.mp hc with hc | hc
      · have := hlt c hc
        omega
      · rw [List.mem_singleton.mp hc]
        omega

theorem nodup (h : Accounts calls accepted) : accepted.Nodup := by
  refine h.increasing.1.imp ?_
  rintro a b hab rfl
  omega

theorem length_le (h : Accounts calls accepted) : accepted.length ≤ (results calls).length := by
  induction h with
  | start => simp
  | sent _ ih => simpa using ih
  | lost _ ih =>
    simp only [results_append, List.length_append]
    omega
  | seen _ _ ih =>
    rw [results_seen]
    simp only [List.length_append, List.length_singleton]
    omega

theorem count_received (h : Accounts calls accepted) :
    calls.count .addPacketReceived = accepted.length := by
  induction h with
  | start => rfl
  | sent _ ih => simpa using ih
  | lost _ ih => simpa using ih
  | seen _ _ ih => simpa [List.count_append, List.count_replicate] using ih

end Accounts

end PacketLossUtils
