import Mathlib
import PacketLossUtils.MessageRoundTrip

/-! The text of the statistics, which leaves nothing of them out. -/
namespace PacketLossUtils

namespace QString

/-- Text up to a separator that occurs in neither part. -/
theorem append_cons_inj {c : Char} {xs ys zs ws : QString} (hx : c ∉ xs) (hy : c ∉ ys)
    (h : xs ++ c :: zs = ys ++ c :: ws) : xs = ys ∧ zs = ws := by
  rcases List.append_eq_append_iff.mp h with ⟨mid, rfl, hmid⟩ | ⟨mid, rfl, hmid⟩
  · rcases List.cons_eq_append_iff.mp hmid with ⟨rfl, hrest⟩ | ⟨rest, rfl, -⟩
    · exact ⟨(List.append_nil xs).symm, (List.cons.inj hrest).2.symm⟩
    · exact absurd (List.mem_append_right xs List.mem_cons_self) hy
  · rcases List.cons_eq_append_iff.mp hmid with ⟨rfl, hrest⟩ | ⟨rest, rfl, -⟩
    · exact ⟨List.append_nil ys, (List.cons.inj hrest).2⟩
    · exact absurd (List.mem_append_right ys List.mem_cons_self) hx

theorem number_negSucc (n : ℕ) : number (Int.negSucc n) = '-' :: number ((n + 1 : ℕ) : ℤ) := by
  simp [number, Int.repr]

theorem comma_not_mem_number (n : ℤ) : ',' ∉ number n := by
  cases n with
  | ofNat n => exact not_mem_number rfl
  | negSucc n =>
    rw [number_negSucc, List.mem_cons, not_or]
    exact ⟨by decide, not_mem_number rfl⟩

theorem number_inj {m n : ℤ} (h : number m = number n) : m = n :=
  Int.repr_inj.mp (String.toList_inj.mp h)

end QString

namespace PingStats

variable {t t' : PingStats} {h h' : List Bool} {calls calls' : List Call}

/-- The parts of the text can be told apart. -/
theorem toString_parts (h : t.toString = t'.toString) :
    t.digits = t'.digits ∧ t.currentPosition = t'.currentPosition ∧
      t.storedBitCount = t'.storedBitCount ∧ t.packetsSent = t'.packetsSent ∧
        t.packetsReceived = t'.packetsReceived := by
  have hposition : ", currentPosition = ".toList = ',' :: " currentPosition = ".toList := rfl
  have hstored : ", storedBitCount = ".toList = ',' :: " storedBitCount = ".toList := rfl
  have hsent : ", packetsSent = ".toList = ',' :: " packetsSent = ".toList := rfl
  have hreceived : ", packetsReceived = ".toList = ',' :: " packetsReceived = ".toList := rfl
  rw [toString_eq, toString_eq] at h
  simp only [hposition, hstored, hsent, hreceived, List.append_assoc, List.cons_append] at h
  have hnumber := QString.comma_not_mem_number
  obtain ⟨hdigits, h⟩ := QString.append_cons_inj (comma_not_mem_appendDigits _ _ _)
    (comma_not_mem_appendDigits _ _ _) (List.append_cancel_left h)
  obtain ⟨hpos, h⟩ := QString.append_cons_inj (hnumber _) (hnumber _) (List.append_cancel_left h)
  obtain ⟨hcount, h⟩ := QString.append_cons_inj (hnumber _) (hnumber _)
    (List.append_cancel_left h)
  obtain ⟨hout, h⟩ := QString.append_cons_inj (hnumber _) (hnumber _) (List.append_cancel_left h)
  have hin := List.append_cancel_right (List.append_cancel_left h)
  refine ⟨hdigits, QString.number_inj hpos, QString.number_inj hcount, ?_, ?_⟩
  · exact UInt64.toNat_inj.mp (Int.ofNat.inj (QString.number_inj hout))
  · exact UInt64.toNat_inj.mp (Int.ofNat.inj (QString.number_inj hin))

/-- The digits show the results that are kept. -/
theorem Represents.results_of_digits (hr : Represents t h) (hr' : Represents t' h')
    (hdigits : t.digits = t'.digits) :
    h.reverse.take (min h.length maxBitCount) = h'.reverse.take (min h'.length maxBitCount) := by
  have hfilter := congrArg (List.filter (· ≠ ' ')) hdigits
  rw [hr.digits, hr'.digits] at hfilter
  exact List.map_inj_right (by decide) |>.mp hfilter

/-- Statistics are as their text says, down to the bits of the array. -/
theorem bitArray_eq (hposition : (replay calls).currentPosition = (replay calls').currentPosition)
    (hstored : (replay calls).storedBitCount = (replay calls').storedBitCount)
    (hdigits : (replay calls).digits = (replay calls').digits) :
    (replay calls).bitArray = (replay calls').bitArray := by
  have hr := represents_replay calls
  have hr' := represents_replay calls'
  have hlatest := hr.results_of_digits hr' hdigits
  rw [hr.stored, hr'.stored] at hstored
  rw [hr.position, hr'.position] at hposition
  rcases Nat.lt_or_ge (results calls).length maxBitCount with hfew | hfull
  · -- nothing was overwritten, and the ring depends on the results alone
    have hresults : results calls = results calls' := by
      rw [List.take_of_length_le (by simp; omega), List.take_of_length_le (by simp; omega)]
        at hlatest
      exact List.reverse_inj.mp hlatest
    have hring := congrArg bitArray (replay_eq calls)
    have hring' := congrArg bitArray (replay_eq calls')
    rw [hresults] at hring
    exact hring.trans hring'.symm
  · have hpos : 0 < maxBitCount := by decide
    rw [min_eq_right hfull, min_eq_right (by omega)] at hlatest
    rw [if_neg (by omega), if_neg (by omega)] at hposition
    apply hr.holds.ext hr'.holds
    · rw [hr.size, hr'.size]
    · rw [hr.size]
      exact hfull
    · rw [hr.size]
      omega
    · rw [hr.size]
      omega
    · rw [hr.size]
      exact hlatest

/-- Two statistics show the same text exactly if they are the same, whatever was called on them. -/
theorem toString_replay_inj (calls calls' : List Call) :
    (replay calls).toString = (replay calls').toString ↔ replay calls = replay calls' := by
  constructor
  · intro h
    obtain ⟨hdigits, hposition, hstored, hsent, hreceived⟩ := toString_parts h
    have hbits := bitArray_eq hposition hstored hdigits
    generalize replay calls = t at *
    generalize replay calls' = t' at *
    cases t
    cases t'
    congr
  · intro h
    rw [h]

end PingStats

end PacketLossUtils
