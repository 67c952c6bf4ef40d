import Mathlib.Algebra.Order.Group.Abs
import Mathlib.Algebra.Order.Group.Int
import Mathlib.Tactic.Ring

/-! A periodic timer that makes up for the periods it has missed. A firing is due one period after
the reading of the one before, and whatever it was late by does not count for the next. -/
namespace CatchUp

variable {period gap since tolerance : ℤ} {readings : List ℤ} {gs : List ℤ}

/-- The time from each reading to the next, the first from `since` on. -/
def gaps : ℤ → List ℤ → List ℤ
  | _, [] => []
  | since, now :: readings => (now - since) :: gaps now readings

/-- What a firing makes up for, in periods, from the distance to the time it was due. -/
def rounds (period gap : ℤ) : ℕ := (gap - period).natAbs / period.toNat + 1

/-- The rounds of all firings in order: whether the firing was in time. -/
def ticks (period tolerance since : ℤ) (readings : List ℤ) : List Bool :=
  (gaps since readings).flatMap fun gap =>
    List.replicate (rounds period gap) (decide (gap ≤ period + tolerance))

/-- The last reading. -/
def last (since : ℤ) (readings : List ℤ) : ℤ := readings.getLastD since

@[simp] theorem gaps_nil : gaps since [] = [] := rfl

@[simp] theorem gaps_cons (now : ℤ) :
    gaps since (now :: readings) = (now - since) :: gaps now readings := rfl

@[simp] theorem last_nil : last since [] = since := rfl

@[simp] theorem last_cons (now : ℤ) : last since (now :: readings) = last now readings :=
  List.getLastD_cons ..

@[simp] theorem ticks_nil : ticks period tolerance since [] = [] := rfl

theorem ticks_cons (now : ℤ) : ticks period tolerance since (now :: readings) =
    List.replicate (rounds period (now - since)) (decide (now - since ≤ period + tolerance)) ++
      ticks period tolerance now readings := rfl

theorem length_gaps (since : ℤ) (readings : List ℤ) :
    (gaps since readings).length = readings.length := by
  induction readings generalizing since with
  | nil => rfl
  | cons now readings ih => rw [gaps_cons, List.length_cons, ih, List.length_cons]

/-- The gaps add up to the time that has passed. -/
theorem sum_gaps : (gaps since readings).sum = last since readings - since := by
  induction readings generalizing since with
  | nil => simp
  | cons now readings ih =>
    rw [gaps_cons, List.sum_cons, ih, last_cons]
    ring

theorem length_ticks : (ticks period tolerance since readings).length =
    ((gaps since readings).map (rounds period)).sum := by
  simp [ticks, List.length_flatMap]

/-! ### Rounds against time -/

/-- A firing that is not early makes up for whole periods only. -/
theorem mul_rounds_le (hperiod : 0 < period) (hgap : period ≤ gap) :
    period * rounds period gap ≤ gap := by
  obtain ⟨p, rfl⟩ := Int.eq_ofNat_of_zero_le hperiod.le
  obtain ⟨late, hlate⟩ := Int.eq_ofNat_of_zero_le (Int.sub_nonneg.mpr hgap)
  have hdiv := Nat.div_mul_le_self late p
  rw [rounds, hlate, Int.natAbs_natCast, Int.toNat_natCast, Nat.cast_succ, Int.mul_add, mul_one,
    mul_comm]
  have hcast : ((late / p : ℕ) : ℤ) * p ≤ late := mod_cast hdiv
  omega

/-- A firing that comes after the one before is off by less than a period. -/
theorem abs_mul_rounds_sub_le (hperiod : 0 < period) (hgap : 0 < gap) :
    |period * rounds period gap - gap| ≤ period - 1 := by
  obtain ⟨p, rfl⟩ := Int.eq_ofNat_of_zero_le hperiod.le
  rw [abs_le]
  rcases le_or_gt (p : ℤ) gap with hlate | hearly
  · have hle := mul_rounds_le hperiod hlate
    obtain ⟨late, hlate⟩ := Int.eq_ofNat_of_zero_le (Int.sub_nonneg.mpr hlate)
    have hdiv : (late : ℤ) < p * ((late / p : ℕ) + 1) :=
      mod_cast Nat.lt_mul_div_succ late (Int.natCast_pos.mp hperiod)
    rw [rounds, hlate, Int.natAbs_natCast, Int.toNat_natCast, Nat.cast_succ] at hle ⊢
    constructor <;> omega
  · have hnone : (gap - p).natAbs / p = 0 := Nat.div_eq_of_lt (by omega)
    rw [rounds, Int.toNat_natCast, hnone, Nat.zero_add, Nat.cast_one, mul_one]
    constructor <;> omega

theorem mul_sum_rounds_le (hperiod : 0 < period) (hgaps : ∀ gap ∈ gs, period ≤ gap) :
    period * ((gs.map (rounds period)).sum : ℕ) ≤ gs.sum := by
  induction gs with
  | nil => simp
  | cons gap gs ih =>
    obtain ⟨hgap, hgaps⟩ := List.forall_mem_cons.mp hgaps
    have hfirst := mul_rounds_le hperiod hgap
    have hrest := ih hgaps
    rw [List.map_cons, List.sum_cons, List.sum_cons, Nat.cast_add, Int.mul_add]
    exact add_le_add hfirst hrest

theorem abs_mul_sum_rounds_sub_le (hperiod : 0 < period) (hgaps : ∀ gap ∈ gs, 0 < gap) :
    |period * ((gs.map (rounds period)).sum : ℕ) - gs.sum| ≤ gs.length * (period - 1) := by
  induction gs with
  | nil => simp
  | cons gap gs ih =>
    obtain ⟨hgap, hgaps⟩ := List.forall_mem_cons.mp hgaps
    have hfirst := abs_mul_rounds_sub_le hperiod hgap
    have hrest := ih hgaps
    have hsplit : period * (((gap :: gs).map (rounds period)).sum : ℕ) - (gap :: gs).sum =
        (period * rounds period gap - gap) +
          (period * ((gs.map (rounds period)).sum : ℕ) - gs.sum) := by
      rw [List.map_cons, List.sum_cons, List.sum_cons, Nat.cast_add]
      ring
    rw [hsplit, List.length_cons, Nat.cast_succ, add_mul, one_mul, add_comm (_ * _)]
    exact (abs_add_le _ _).trans (add_le_add hfirst hrest)

/-- A timer that never fires early stays behind the clock. -/
theorem mul_length_ticks_le (tolerance : ℤ) (hperiod : 0 < period)
    (hgaps : ∀ gap ∈ gaps since readings, period ≤ gap) :
    period * ((ticks period tolerance since readings).length : ℕ) ≤
      last since readings - since := by
  rw [length_ticks, ← sum_gaps]
  exact mul_sum_rounds_le hperiod hgaps

/-- Each firing of a timer adds less than a period to its distance from the clock. -/
theorem abs_mul_length_ticks_sub_le (tolerance : ℤ) (hperiod : 0 < period)
    (hgaps : ∀ gap ∈ gaps since readings, 0 < gap) :
    |period * ((ticks period tolerance since readings).length : ℕ) -
      (last since readings - since)| ≤ readings.length * (period - 1) := by
  rw [length_ticks, ← sum_gaps, ← length_gaps since]
  exact abs_mul_sum_rounds_sub_le hperiod hgaps

/-! ### Every n-th tick -/

section

variable {α : Type} {n phase : ℕ}

/-- Every `n`-th element, if `phase` have passed since the last one. -/
def everyNth (n : ℕ) : ℕ → List α → List α
  | _, [] => []
  | phase, a :: l => if phase + 1 = n then a :: everyNth n 0 l else everyNth n (phase + 1) l

theorem everyNth_append (hphase : phase < n) (xs ys : List α) : everyNth n phase (xs ++ ys) =
    everyNth n phase xs ++ everyNth n ((phase + xs.length) % n) ys := by
  induction xs generalizing phase with
  | nil => simp [everyNth, Nat.mod_eq_of_lt hphase]
  | cons x xs ih =>
    have hlength : phase + (x :: xs).length = phase + 1 + xs.length := by
      rw [List.length_cons]
      omega
    rw [List.cons_append, everyNth, everyNth, hlength]
    split
    · rename_i hfull
      rw [ih (by omega), hfull, Nat.zero_add, Nat.add_mod_left, List.cons_append]
    · exact ih (by omega)

theorem length_everyNth (hphase : phase < n) (l : List α) :
    (everyNth n phase l).length = (phase + l.length) / n := by
  induction l generalizing phase with
  | nil => exact (Nat.div_eq_of_lt hphase).symm
  | cons a l ih =>
    have hlength : phase + (a :: l).length = phase + 1 + l.length := by
      rw [List.length_cons]
      omega
    rw [everyNth, hlength]
    split
    · rename_i hfull
      rw [List.length_cons, ih (by omega), hfull, Nat.zero_add, Nat.add_div_left _ (by omega)]
    · exact ih (by omega)

theorem everyNth_replicate (hphase : phase < n) (k : ℕ) (a : α) :
    everyNth n phase (List.replicate k a) = List.replicate ((phase + k) / n) a := by
  rw [List.eq_replicate_iff, length_everyNth hphase, List.length_replicate]
  refine ⟨rfl, ?_⟩
  clear hphase
  induction k generalizing phase with
  | zero => simp [everyNth]
  | succ k ih =>
    rw [List.replicate_succ, everyNth]
    split
    · exact List.forall_mem_cons.mpr ⟨rfl, ih⟩
    · exact ih

end

end CatchUp
