import Mathlib.Tactic.Common

/-! Maps by key: lookups after an update, and logs written while visiting all entries. -/
namespace TreeMap

open Std

variable {α β ε : Type}

/-- Of a log written entry by entry, what is about one key is what its entry wrote. -/
theorem filter_flatMap_of_distinct [DecidableEq α] {key : ε → α} {f : α × β → List ε} (k : α)
    (hf : ∀ e, ∀ x ∈ f e, key x = e.1) {l : List (α × β)}
    (hl : l.Pairwise fun a b => a.1 ≠ b.1) :
    (l.flatMap f).filter (fun x => key x = k) =
      ((l.find? fun e => e.1 = k).map f).getD [] := by
  induction l with
  | nil => rfl
  | cons e l ih =>
    rw [List.pairwise_cons] at hl
    rw [List.flatMap_cons, List.filter_append, ih hl.2]
    by_cases he : e.1 = k
    · have hself : (f e).filter (fun x => key x = k) = f e := by
        rw [List.filter_eq_self]
        intro x hx
        simpa [he] using hf e x hx
      have hrest : (l.find? fun e => e.1 = k) = none := by
        rw [List.find?_eq_none]
        intro b hb
        simpa [← he] using (hl.1 b hb).symm
      simp [hself, hrest, he]
    · have hself : (f e).filter (fun x => key x = k) = [] := by
        rw [List.filter_eq_nil_iff]
        intro x hx
        simpa [hf e x hx] using he
      simp [hself, he]

variable [Ord α] [TransOrd α] {m : ExtTreeMap α β}

theorem mem_iff_exists {k : α} : k ∈ m ↔ ∃ v, m[k]? = some v := by
  rw [ExtTreeMap.mem_iff_isSome_getElem?, Option.isSome_iff_exists]

theorem size_insert_of_mem {k : α} {v : β} (h : k ∈ m) : (m.insert k v).size = m.size := by
  rw [ExtTreeMap.size_insert, if_pos (ExtTreeMap.contains_iff_mem.mpr h)]

theorem size_erase_lt {k : α} (h : k ∈ m) : (m.erase k).size < m.size := by
  have hpos : m.size ≠ 0 := by
    intro hzero
    obtain rfl := ExtTreeMap.eq_empty_iff_size_eq_zero.mpr hzero
    exact ExtTreeMap.not_mem_empty h
  rw [ExtTreeMap.size_erase, if_pos (ExtTreeMap.contains_iff_mem.mpr h)]
  omega

theorem sorted_toList [LE α] [LT α] [LawfulOrderOrd α] [LawfulOrderLT α]
    (m : ExtTreeMap α β) : m.toList.Pairwise fun a b => a.1 < b.1 :=
  ExtTreeMap.ordered_keys_toList.imp compare_eq_lt.mp

variable [LawfulEqOrd α]

theorem distinct_toList (m : ExtTreeMap α β) :
    m.toList.Pairwise fun a b => a.1 ≠ b.1 := by
  refine ExtTreeMap.distinct_keys_toList.imp ?_
  intro a b hab he
  exact hab (compare_eq_iff_eq.mpr he)

theorem mem_of_mem_toList {e : α × β} (h : e ∈ m.toList) : e.1 ∈ m :=
  mem_iff_exists.mpr ⟨e.2, ExtTreeMap.mem_toList_iff_getElem?_eq_some.mp h⟩

variable [DecidableEq α]

theorem getElem?_insert (m : ExtTreeMap α β) (k a : α) (v : β) :
    (m.insert k v)[a]? = if k = a then some v else m[a]? := by
  simp [ExtTreeMap.getElem?_insert]

theorem getElem?_erase (m : ExtTreeMap α β) (k a : α) :
    (m.erase k)[a]? = if k = a then none else m[a]? := by
  simp [ExtTreeMap.getElem?_erase]

theorem erase_of_not_mem {k : α} (h : k ∉ m) : m.erase k = m := by
  apply ExtTreeMap.ext_getElem?
  intro a
  rw [getElem?_erase]
  split
  · rename_i hk
    rw [← hk, ExtTreeMap.getElem?_eq_none h]
  · rfl

theorem erase_insert_self (m : ExtTreeMap α β) (k : α) (v : β) :
    (m.insert k v).erase k = m.erase k := by
  apply ExtTreeMap.ext_getElem?
  intro a
  rw [getElem?_erase, getElem?_erase, getElem?_insert]
  split <;> rfl

theorem map_insert {γ : Type} (f : α → β → γ) (m : ExtTreeMap α β) (k : α) (v : β) :
    (m.insert k v).map f = (m.map f).insert k (f k v) := by
  apply ExtTreeMap.ext_getElem?
  intro a
  rw [ExtTreeMap.getElem?_map, getElem?_insert, getElem?_insert, ExtTreeMap.getElem?_map]
  split
  · rename_i hk
    rw [hk]
    rfl
  · rfl

theorem map_erase {γ : Type} (f : α → β → γ) (m : ExtTreeMap α β) (k : α) :
    (m.erase k).map f = (m.map f).erase k := by
  apply ExtTreeMap.ext_getElem?
  intro a
  rw [ExtTreeMap.getElem?_map, getElem?_erase, getElem?_erase, ExtTreeMap.getElem?_map]
  split <;> rfl

theorem find?_toList (m : ExtTreeMap α β) (k : α) :
    (m.toList.find? fun e => e.1 = k) = m[k]?.map fun v => (k, v) := by
  cases h : m[k]? with
  | none =>
    rw [Option.map_none, List.find?_eq_none]
    rintro ⟨a, v⟩ hmem
    have := ExtTreeMap.mem_toList_iff_getElem?_eq_some.mp hmem
    simp only [decide_eq_true_eq]
    rintro rfl
    simp [h] at this
  | some v =>
    have hmem := ExtTreeMap.mem_toList_iff_getElem?_eq_some.mpr h
    rw [Option.map_some]
    cases hfind : m.toList.find? fun e => e.1 = k with
    | none => exact (List.find?_eq_none.mp hfind _ hmem (by simp)).elim
    | some e =>
      obtain ⟨a, w⟩ := e
      have ha : a = k := by simpa using List.find?_some hfind
      have hw := ExtTreeMap.mem_toList_iff_getElem?_eq_some.mp (List.mem_of_find?_eq_some hfind)
      subst ha
      simp_all

theorem filter_flatMap_toList {key : ε → α} {f : α × β → List ε} (m : ExtTreeMap α β) (k : α)
    (hf : ∀ e, ∀ x ∈ f e, key x = e.1) :
    (m.toList.flatMap f).filter (fun x => key x = k) =
      (m[k]?.map fun v => f (k, v)).getD [] := by
  rw [filter_flatMap_of_distinct k hf (distinct_toList m), find?_toList, Option.map_map]
  rfl

end TreeMap
