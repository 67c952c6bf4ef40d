import Mathlib.Algebra.Group.Nat.Defs
import PacketLossUtils.Lib.Trace

/-! A receiver that expects the numbers 0, 1, 2, ... in order, with 64-bit arithmetic. A number it
sees settles itself and all that are missing before it. -/
namespace ExpectedNumber

open Trace

/-- What one step is for the expected number. -/
inductive Input
  | pass
  | lose
  | see (n : UInt64)

def next (i : Input) (expected : UInt64) : UInt64 :=
  match i with
  | .pass => expected
  | .lose => expected + 1
  | .see n => if expected > n then expected else n + 1

def Accepts (n : UInt64) (i : Input) (expected : UInt64) : Prop := i = .see n ∧ expected ≤ n

/-- The number is accepted or declared lost. -/
def Settles (n : UInt64) (i : Input) (expected : UInt64) : Prop :=
  match i with
  | .pass => False
  | .lose => n = expected
  | .see m => expected ≤ n ∧ n ≤ m

/-- The last number is not settled. -/
def NoWrap (i : Input) (expected : UInt64) : Prop :=
  match i with
  | .pass => True
  | .lose => expected.toNat ≠ 2 ^ 64 - 1
  | .see n => n.toNat ≠ 2 ^ 64 - 1

instance (i : Input) (expected : UInt64) : Decidable (NoWrap i expected) :=
  match i with
  | .pass => isTrue trivial
  | .lose => inferInstanceAs (Decidable (_ ≠ _))
  | .see _ => inferInstanceAs (Decidable (_ ≠ _))

variable {i : Input} {n expected : UInt64}

theorem toNat_succ (h : n.toNat ≠ 2 ^ 64 - 1) : (n + 1).toNat = n.toNat + 1 := by
  have hn := n.toNat_lt
  rw [UInt64.toNat_add, show (1 : UInt64).toNat = 1 from rfl]
  omega

theorem le_next (h : NoWrap i expected) : expected ≤ next i expected := by
  cases i with
  | pass => exact UInt64.le_refl _
  | lose =>
    rw [next, UInt64.le_iff_toNat_le, toNat_succ h]
    exact Nat.le_succ _
  | see n =>
    rw [next]
    split
    · exact UInt64.le_refl _
    · rename_i hle
      have hle := UInt64.le_iff_toNat_le.mp (UInt64.not_lt.mp hle)
      rw [UInt64.le_iff_toNat_le, toNat_succ h]
      omega

theorem lt_next_of_settles (h : NoWrap i expected) (hn : Settles n i expected) :
    n < next i expected := by
  cases i with
  | pass => exact hn.elim
  | lose =>
    obtain rfl : n = expected := hn
    rw [next, UInt64.lt_iff_toNat_lt, toNat_succ h]
    exact Nat.lt_succ_self _
  | see m =>
    obtain ⟨hlo, hhi⟩ := hn
    rw [next, if_neg (UInt64.not_lt.mpr (UInt64.le_trans hlo hhi)), UInt64.lt_iff_toNat_lt,
      toNat_succ h]
    exact Nat.lt_succ_of_le (UInt64.le_iff_toNat_le.mp hhi)

theorem not_accepts_of_lt (h : n < expected) : ¬ Accepts n i expected :=
  fun haccepts => UInt64.not_lt.mpr haccepts.2 h

/-- Settling the last number makes the receiver start again from 0. -/
theorem wraps (h : ¬ NoWrap i expected) :
    next i expected = 0 ∧ ∃ last : UInt64, last.toNat = 2 ^ 64 - 1 ∧ Settles last i expected := by
  have hzero : ∀ n : UInt64, n.toNat = 2 ^ 64 - 1 → n + 1 = 0 := by
    intro n hn
    rw [← UInt64.toNat_inj, UInt64.toNat_add, hn]
    rfl
  cases i with
  | pass => exact absurd trivial h
  | lose =>
    have hlast := not_not.mp h
    exact ⟨hzero expected hlast, expected, hlast, rfl⟩
  | see n =>
    have hlast := not_not.mp h
    have hle : expected ≤ n := by
      have := expected.toNat_lt
      rw [UInt64.le_iff_toNat_le, hlast]
      omega
    rw [next, if_neg (UInt64.not_lt.mpr hle)]
    exact ⟨hzero n hlast, n, hlast, hle, UInt64.le_refl n⟩

/-! ### Machines that keep an expected number -/

section Machine

variable {σ ι ε : Type*} (step : ι → σ → σ × List ε) (input : ι → σ → Input)
  (expected : σ → UInt64)

/-- No number that has been settled is accepted later. -/
def NeverAgain : List ι → σ → Prop
  | [], _ => True
  | i :: is, s =>
    (∀ n, Settles n (input i s) (expected s) →
      Along step (fun j s' => ¬ Accepts n (input j s') (expected s')) is (step i s).1) ∧
    NeverAgain is (step i s).1

variable {step input expected} {is : List ι} {s : σ}
  (hstep : ∀ i s, expected (step i s).1 = next (input i s) (expected s))

include hstep

theorem not_accepts_along (h : Along step (fun i s => NoWrap (input i s) (expected s)) is s)
    (hn : n < expected s) :
    Along step (fun i s => ¬ Accepts n (input i s) (expected s)) is s := by
  induction is generalizing s with
  | nil => trivial
  | cons i is ih =>
    refine ⟨not_accepts_of_lt hn, ih h.2 ?_⟩
    rw [hstep]
    exact UInt64.lt_of_lt_of_le hn (le_next h.1)

/-- Without a wrap the expected number never goes back, and nothing is accepted twice. -/
theorem neverAgain (h : Along step (fun i s => NoWrap (input i s) (expected s)) is s) :
    Along step (fun i s => expected s ≤ expected (step i s).1) is s ∧
      NeverAgain step input expected is s := by
  induction is generalizing s with
  | nil => exact ⟨trivial, trivial⟩
  | cons i is ih =>
    obtain ⟨hforward, hagain⟩ := ih h.2
    refine ⟨⟨?_, hforward⟩, ⟨?_, hagain⟩⟩
    · show expected s ≤ expected (step i s).1
      rw [hstep]
      exact le_next h.1
    · intro n hn
      apply not_accepts_along hstep h.2
      rw [hstep]
      exact lt_next_of_settles h.1 hn

end Machine

end ExpectedNumber
