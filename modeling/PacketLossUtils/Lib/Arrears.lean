import Mathlib.Data.Int.Interval
import Mathlib.Data.Set.Card
import Mathlib.Order.Lattice.Nat
import Mathlib.Tactic.Positivity

/-! A receiver that owes a charge for every full period of silence, and makes at most one charge
whenever it looks at the clock. -/
namespace Arrears

variable {period tolerance since now last : ℤ} {n m : ℕ}

/-- The full periods after `since` that are over at `now`, each with its tolerance. -/
noncomputable def due (period tolerance since now : ℤ) : ℕ :=
  Set.ncard {k : ℤ | 1 ≤ k ∧ since + k * period + tolerance < now}

theorem due_eq (hperiod : 0 < period) :
    due period tolerance since now = ((now - since - tolerance - 1) / period).toNat := by
  have hset : {k : ℤ | 1 ≤ k ∧ since + k * period + tolerance < now} =
      Finset.Icc 1 ((now - since - tolerance - 1) / period) := by
    ext k
    rw [Finset.coe_Icc, Set.mem_ofPred_eq, Set.mem_Icc, Int.le_ediv_iff_mul_le hperiod]
    constructor
    · rintro ⟨hk, hover⟩
      exact ⟨hk, by omega⟩
    · rintro ⟨hk, hover⟩
      exact ⟨hk, by omega⟩
  rw [due, hset, Set.ncard_coe_finset, Int.card_Icc]
  congr 1
  omega

/-- The charge number `n + 1` is owed as soon as its own period and the tolerance are over. -/
theorem lt_due_iff (hperiod : 0 < period) :
    n < due period tolerance since now ↔ since + (n + 1) * period + tolerance < now := by
  rw [due_eq hperiod, Int.lt_toNat, Int.lt_iff_add_one_le, Int.le_ediv_iff_mul_le hperiod]
  omega

theorem due_mono (hperiod : 0 < period) (hle : now ≤ last) :
    due period tolerance since now ≤ due period tolerance since last := by
  by_contra hgt
  have hover := (lt_due_iff hperiod).mp (not_le.mp hgt)
  have hmore := (lt_due_iff hperiod).mpr (hover.trans_le hle)
  exact lt_irrefl _ hmore

/-- What has been charged so far lies before the clock. -/
theorem charged_before (hperiod : 0 < period) (hn : n ≤ due period tolerance since now)
    (hpos : 0 < n) : since + n * period + tolerance < now := by
  obtain ⟨k, rfl⟩ := Nat.exists_eq_succ_of_ne_zero hpos.ne'
  have hover := (lt_due_iff hperiod).mp (Nat.lt_of_succ_le hn)
  exact_mod_cast hover

/-- A bound by the time that has passed, for any shorter period. -/
theorem due_le {shorter D : ℕ} (hshorter : 0 < shorter) (hle : (shorter : ℤ) ≤ period)
    (htolerance : 0 ≤ tolerance) : due period tolerance since (since + D) ≤ D / shorter := by
  have hperiod : 0 < period := by omega
  by_contra hgt
  have hover := (lt_due_iff hperiod).mp (not_le.mp hgt)
  have hmul : ((D / shorter : ℕ) + 1 : ℤ) * shorter ≤ ((D / shorter : ℕ) + 1) * period :=
    Int.mul_le_mul_of_nonneg_left hle (by positivity)
  have hlast : (D : ℤ) < shorter * ((D / shorter : ℕ) + 1) :=
    mod_cast Nat.lt_mul_div_succ D hshorter
  rw [Int.mul_comm] at hlast
  omega

/-- One look at the clock after `n` charges. -/
def charge (period tolerance since now : ℤ) (n : ℕ) : ℕ :=
  if since + (n + 1) * period + tolerance < now then n + 1 else n

theorem charge_eq (hperiod : 0 < period) (n : ℕ) :
    charge period tolerance since now n =
      if n < due period tolerance since now then n + 1 else n := by
  simp only [charge, lt_due_iff hperiod]

/-- Never more than is owed. -/
theorem charge_le (hperiod : 0 < period) (hnow : now ≤ last)
    (hn : n ≤ due period tolerance since last) :
    charge period tolerance since now n ≤ due period tolerance since last := by
  have hmono : due period tolerance since now ≤ due period tolerance since last :=
    due_mono hperiod hnow
  rw [charge_eq hperiod]
  split <;> omega

/-- Looking again and again while the clock stands still makes the charges that are owed, and
then no more. -/
theorem charge_iterate (hperiod : 0 < period) (n m : ℕ) :
    (charge period tolerance since now)^[m] n =
      n + min m (due period tolerance since now - n) := by
  induction m with
  | zero => simp
  | succ m ih =>
    rw [Function.iterate_succ_apply', ih, charge_eq hperiod]
    split <;> omega

/-- A count that never falls and never passes a bound comes to rest. -/
theorem comes_to_rest {f : ℕ → ℕ} {bound : ℕ} (hmono : Monotone f) (hbound : ∀ i, f i ≤ bound) :
    ∃ i, ∀ j, i ≤ j → f j = f i := by
  have hbdd : BddAbove (Set.range f) := ⟨bound, Set.forall_mem_range.mpr hbound⟩
  obtain ⟨i, hi⟩ := Nat.sSup_mem (Set.range_nonempty f) hbdd
  refine ⟨i, fun j hj => le_antisymm ?_ (hmono hj)⟩
  rw [hi]
  exact le_csSup hbdd ⟨j, rfl⟩

end Arrears
