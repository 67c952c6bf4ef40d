import Mathlib.Data.Nat.ModEq
import Mathlib.Tactic.Common

/-! A fixed number of cells holding the latest entries of an unbounded history. -/
namespace Circular

variable {α : Type*} {cells h : List α} {a : α} {n w : ℕ}

/-- Entry number `i` of the history sits in cell `i % cells.length` for as long as
fewer than `cells.length` entries came after it. -/
def Holds (cells h : List α) : Prop :=
  ∀ i (hi : i < h.length), h.length ≤ i + cells.length →
    cells[i % cells.length]? = some h[i]

theorem holds_nil (cells : List α) : Holds cells [] := by
  intro i hi
  simp at hi

/-- Two entries less than one turn apart never share a cell. -/
theorem mod_ne_of_lt_turn {i j : ℕ} (hij : i < j) (hturn : j < i + n) : i % n ≠ j % n := by
  intro he
  have hz := Nat.sub_mod_eq_zero_of_mod_eq he.symm
  rw [Nat.mod_eq_of_lt (by omega)] at hz
  omega

theorem Holds.push (hc : Holds cells h) (hpos : 0 < cells.length) :
    Holds (cells.set (h.length % cells.length) a) (h ++ [a]) := by
  intro i hi hlate
  simp only [List.length_append, List.length_singleton, List.length_set] at hi hlate ⊢
  have hcell := Nat.mod_lt i hpos
  rcases Nat.lt_or_ge i h.length with hold | hnew
  · have hne := mod_ne_of_lt_turn hold (by omega : h.length < i + cells.length)
    rw [List.getElem?_set_ne hne.symm, List.getElem_append_left hold]
    exact hc i hold (by omega)
  · obtain rfl : i = h.length := by omega
    rw [List.getElem?_set_self hcell]
    simp

/-- The cells passed in `w` steps back from cell `p`, the first one included. -/
def back (n : ℕ) : ℕ → ℕ → List ℕ
  | 0, _ => []
  | w + 1, p => p :: back n w (if p = 0 then n - 1 else p - 1)

/-- One step back from cell `(k + 1) % n` reaches cell `k % n`. -/
theorem step_back_mod (hpos : 0 < n) (k : ℕ) :
    (if (k + 1) % n = 0 then n - 1 else (k + 1) % n - 1) = k % n := by
  have hk := Nat.mod_lt k hpos
  have hsucc : (k + 1) % n = (k % n + 1) % n := by simp
  rcases Nat.lt_or_ge (k % n + 1) n with hlt | hge
  · rw [hsucc, Nat.mod_eq_of_lt hlt]
    simp
  · have hlast : k % n + 1 = n := by omega
    rw [hsucc, hlast, Nat.mod_self, if_pos rfl]
    omega

theorem back_eq_map (hpos : 0 < n) (k : ℕ) (hw : w ≤ k + 1) :
    back n w (k % n) = (List.range w).map fun j => (k - j) % n := by
  induction w generalizing k with
  | zero => rfl
  | succ w ih =>
    rw [back, List.range_succ_eq_map, List.map_cons, List.map_map, Nat.sub_zero]
    congr 1
    rcases Nat.eq_zero_or_pos k with rfl | hk
    · obtain rfl : w = 0 := by omega
      rfl
    · obtain ⟨m, rfl⟩ : ∃ m, k = m + 1 := ⟨k - 1, by omega⟩
      rw [step_back_mod hpos, ih m (by omega)]
      apply List.map_congr_left
      intro j _
      simp only [Function.comp_apply]
      congr 1
      omega

theorem back_lt (hpos : 0 < n) {p : ℕ} (hp : p < n) : ∀ q ∈ back n w p, q < n := by
  induction w generalizing p with
  | zero => simp [back]
  | succ w ih =>
    intro q hq
    rcases List.mem_cons.mp hq with rfl | hq
    · exact hp
    · exact ih (by split <;> omega) q hq

/-- Walking back from the newest entry reads the history from its end. -/
theorem Holds.read_back (hc : Holds cells h) (hpos : 0 < cells.length)
    (hw : w ≤ h.length) (hcap : w ≤ cells.length) :
    (back cells.length w ((h.length - 1) % cells.length)).map (cells[·]?) =
      (h.reverse.take w).map some := by
  rw [back_eq_map hpos _ (by omega), List.map_map]
  apply List.ext_getElem
  · simp [hw]
  · intro j hj _
    simp only [List.length_map, List.length_range] at hj
    simp only [List.getElem_map, List.getElem_range, Function.comp_apply, List.getElem_take,
      List.getElem_reverse]
    exact hc (h.length - 1 - j) (by omega) (by omega)

/-- Cells that are all in use are determined by the latest entries and the cell of the newest. -/
theorem Holds.ext {cells' h' : List α} (hc : Holds cells h) (hc' : Holds cells' h')
    (hsize : cells'.length = cells.length) (hfull : cells.length ≤ h.length)
    (hfull' : cells.length ≤ h'.length)
    (hnewest : (h.length - 1) % cells.length = (h'.length - 1) % cells.length)
    (hlatest : h.reverse.take cells.length = h'.reverse.take cells.length) : cells = cells' := by
  apply List.ext_getElem?
  intro k
  rcases Nat.lt_or_ge k cells.length with hk | hk
  · -- in both histories `d` entries are newer than the one in cell `k`
    let d := (h.length - 1 - k) % cells.length
    have hd : d < cells.length := Nat.mod_lt _ (by omega)
    have hcell : ∀ n, cells.length ≤ n →
        (h.length - 1) % cells.length = (n - 1) % cells.length →
          (n - 1 - d) % cells.length = k := by
      intro n hn hmod
      have hturns := Nat.mod_add_div (h.length - 1 - k) cells.length
      have hsame : (n - 1 - d) + d ≡ k + d [MOD cells.length] := by
        rw [Nat.sub_add_cancel (by omega)]
        have hcongr : h.length - 1 ≡ n - 1 [MOD cells.length] := hmod
        refine hcongr.symm.trans ?_
        have hsplit : h.length - 1 =
            k + d + cells.length * ((h.length - 1 - k) / cells.length) := by omega
        rw [hsplit]
        exact Nat.ModEq.symm (by simp [Nat.ModEq])
      have hcancel := Nat.ModEq.add_right_cancel' d hsame
      rwa [Nat.ModEq, Nat.mod_eq_of_lt hk] at hcancel
    have hentry := congrArg (·[d]?) hlatest
    simp only [List.getElem?_take, hd, if_true] at hentry
    rw [List.getElem?_reverse (by omega), List.getElem?_reverse (by omega)] at hentry
    have hread := hc (h.length - 1 - d) (by omega) (by omega)
    have hread' := hc' (h'.length - 1 - d) (by omega) (by omega)
    rw [hcell _ hfull rfl] at hread
    rw [hsize, hcell _ hfull' hnewest] at hread'
    rw [hread, hread', ← List.getElem?_eq_getElem, ← List.getElem?_eq_getElem]
    exact hentry
  · rw [List.getElem?_eq_none hk, List.getElem?_eq_none (by omega)]

end Circular
