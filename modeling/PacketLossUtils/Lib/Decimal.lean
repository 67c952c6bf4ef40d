import Mathlib.Data.List.Basic
import Mathlib.Data.List.Induction
import Mathlib.Data.Nat.Init

/-! Decimal numerals as they are written: digits only, and no zero in front of others. -/
namespace Decimal

variable {s : List Char} {c : Char} {n : ℕ}

/-- Digits, the first of them not zero unless it is the only one. -/
def Canonical (s : List Char) : Prop :=
  s ≠ [] ∧ (∀ c ∈ s, c.isDigit) ∧ (s = ['0'] ∨ s.head? ≠ some '0')

instance (s : List Char) : Decidable (Canonical s) :=
  inferInstanceAs (Decidable (_ ∧ _ ∧ _))

theorem sub_lt_ten (hc : c.isDigit) : c.toNat - 48 < 10 := by
  simp only [Char.isDigit, Bool.and_eq_true, decide_eq_true_eq] at hc
  have hhi := UInt32.le_iff_toNat_le.mp hc.2
  change c.toNat ≤ 57 at hhi
  omega

theorem digitChar_sub (hc : c.isDigit) : (c.toNat - 48).digitChar = c := by
  have hlt := sub_lt_ten hc
  simp only [Char.isDigit, Bool.and_eq_true, decide_eq_true_eq] at hc
  have hlo := UInt32.le_iff_toNat_le.mp hc.1
  change 48 ≤ c.toNat at hlo
  apply Char.toNat_inj.mp
  rw [Nat.toNat_digitChar_of_lt_ten hlt]
  omega

/-- Cutting off the last digit leaves a numeral. -/
theorem Canonical.of_append_singleton (h : Canonical (s ++ [c])) (hs : s ≠ []) :
    Canonical s ∧ s ≠ ['0'] := by
  obtain ⟨_, hdigits, hlead⟩ := h
  have hhead : s.head? ≠ some '0' := by
    rcases hlead with heq | hne
    · cases s with
      | nil => exact (hs rfl).elim
      | cons d s => simp at heq
    · rwa [List.head?_append_of_ne_nil _ hs] at hne
  refine ⟨⟨hs, fun d hd => hdigits d (List.mem_append_left _ hd), .inr hhead⟩, ?_⟩
  rintro rfl
  exact hhead rfl

/-- A numeral is the one way to write its value. -/
theorem toDigits_ofDigitChars (h : Canonical s) :
    Nat.toDigits 10 (Nat.ofDigitChars 10 s 0) = s := by
  induction s using List.reverseRecOn with
  | nil => exact (h.1 rfl).elim
  | append_singleton s c ih =>
    have hc : c.isDigit := h.2.1 c (by simp)
    have hlt := sub_lt_ten hc
    have hlast : Nat.toDigits 10 (c.toNat - 48) = [c] := by
      rw [Nat.toDigits_of_lt_base hlt, digitChar_sub hc]
    rw [Nat.ofDigitChars_append, Nat.ofDigitChars_cons, Nat.ofDigitChars_nil]
    by_cases hs : s = []
    · subst hs
      simpa using hlast
    · obtain ⟨hcanonical, hzero⟩ := h.of_append_singleton hs
      have ih := ih hcanonical
      have hpos : 0 < Nat.ofDigitChars 10 s 0 := by
        apply Nat.pos_of_ne_zero
        intro h0
        rw [h0, Nat.toDigits_zero] at ih
        exact hzero ih.symm
      have happend := Nat.toDigits_append_toDigits (b := 10) (by decide) hpos hlt
      rw [ih, hlast] at happend
      exact happend.symm

theorem head?_toDigits_ne_zero (hn : 0 < n) : (Nat.toDigits 10 n).head? ≠ some '0' := by
  induction n using Nat.strongRecOn with
  | ind n ih =>
    by_cases hlt : n < 10
    · rw [Nat.toDigits_of_lt_base hlt, List.head?_cons, ne_eq, Option.some.injEq]
      intro hzero
      have := Nat.toNat_digitChar_of_lt_ten hlt
      rw [hzero] at this
      change 48 = 48 + n at this
      omega
    · rw [Nat.toDigits_of_base_le (by decide) (by omega),
        List.head?_append_of_ne_nil _ Nat.toDigits_ne_nil]
      exact ih (n / 10) (by omega) (by omega)

theorem canonical_toDigits (n : ℕ) : Canonical (Nat.toDigits 10 n) := by
  refine ⟨Nat.toDigits_ne_nil, fun c hc => ?_, ?_⟩
  · exact Nat.isDigit_of_mem_toDigits (by decide) (by decide) hc
  · rcases Nat.eq_zero_or_pos n with rfl | hn
    · exact .inl (Nat.toDigits_zero 10)
    · exact .inr (head?_toDigits_ne_zero hn)

/-- Numerals are the images of the numbers. -/
theorem canonical_iff : Canonical s ↔ ∃ n, s = Nat.toDigits 10 n := by
  constructor
  · intro h
    exact ⟨_, (toDigits_ofDigitChars h).symm⟩
  · rintro ⟨n, rfl⟩
    exact canonical_toDigits n

end Decimal
