import PacketLossUtils.Lib.Trace

/-! Inputs with keys: runs in which inputs of different keys change places. -/
namespace Trace

variable {σ ι ε κ : Type*} [DecidableEq κ] {step : ι → σ → σ × List ε} {key : ι → κ}
  {tag : ε → κ} {i j : ι} {is is' : List ι} {s : σ}

/-- Inputs of different keys commute, and what an input logs is tagged with its key and not
touched by the others. -/
structure Independent (step : ι → σ → σ × List ε) (key : ι → κ) (tag : ε → κ) : Prop where
  state : ∀ i j s, key i ≠ key j → (step j (step i s).1).1 = (step i (step j s).1).1
  log : ∀ i j s, key i ≠ key j → (step j (step i s).1).2 = (step j s).2
  tag_eq : ∀ i s, ∀ x ∈ (step i s).2, tag x = key i

/-- The part of a log with one tag. -/
def tagged (tag : ε → κ) (k : κ) (log : List ε) : List ε := log.filter fun x => tag x = k

theorem tagged_append (k : κ) (xs ys : List ε) :
    tagged tag k (xs ++ ys) = tagged tag k xs ++ tagged tag k ys :=
  List.filter_append ..

/-- Runs that end in the same state and log the same under each tag. -/
def SameOutcome (tag : ε → κ) (out out' : σ × List ε) : Prop :=
  out.1 = out'.1 ∧ ∀ k, tagged tag k out.2 = tagged tag k out'.2

theorem SameOutcome.refl (out : σ × List ε) : SameOutcome tag out out := ⟨rfl, fun _ => rfl⟩

theorem SameOutcome.trans {out out' out'' : σ × List ε} (h : SameOutcome tag out out')
    (h' : SameOutcome tag out' out'') : SameOutcome tag out out'' :=
  ⟨h.1.trans h'.1, fun k => (h.2 k).trans (h'.2 k)⟩

theorem SameOutcome.cons (i : ι) (h : SameOutcome tag (run step is (step i s).1)
    (run step is' (step i s).1)) :
    SameOutcome tag (run step (i :: is) s) (run step (i :: is') s) := by
  refine ⟨h.1, fun k => ?_⟩
  rw [run_cons, run_cons, tagged_append, tagged_append, h.2 k]

namespace Independent

theorem tagged_ne (h : Independent step key tag) {k : κ} (hk : key i ≠ k) (s : σ) :
    tagged tag k (step i s).2 = [] := by
  rw [tagged, List.filter_eq_nil_iff]
  intro x hx
  simpa [h.tag_eq i s x hx] using hk

theorem swap (h : Independent step key tag) (hne : key i ≠ key j) (is : List ι) (s : σ) :
    SameOutcome tag (run step (i :: j :: is) s) (run step (j :: i :: is) s) := by
  refine ⟨?_, fun k => ?_⟩
  · rw [run_cons, run_cons, run_cons, run_cons, h.state i j s hne]
  · rw [run_cons, run_cons, run_cons, run_cons, h.state i j s hne, h.log i j s hne,
      h.log j i s hne.symm]
    simp only [tagged_append]
    -- one of the two logs has nothing under the tag
    rcases eq_or_ne (key i) k with rfl | hk
    · rw [h.tagged_ne hne.symm]
      rfl
    · rw [h.tagged_ne hk]
      rfl

/-- An input can be handled before those of other keys that come first. -/
theorem move_front (h : Independent step key tag) (hne : ∀ j ∈ is, key j ≠ key i)
    (is' : List ι) (s : σ) :
    SameOutcome tag (run step (is ++ i :: is') s) (run step (i :: (is ++ is')) s) := by
  induction is generalizing s with
  | nil => exact .refl _
  | cons j is ih =>
    obtain ⟨hj, hrest⟩ := List.forall_mem_cons.mp hne
    have hmoved := SameOutcome.cons j (ih hrest (step j s).1)
    exact hmoved.trans (h.swap hj _ s)

/-- The order matters only among inputs of one key. -/
theorem run_sameOutcome (h : Independent step key tag)
    (horder : ∀ k, is.filter (fun i => key i = k) = is'.filter (fun i => key i = k)) (s : σ) :
    SameOutcome tag (run step is s) (run step is' s) := by
  induction is generalizing is' s with
  | nil =>
    have hnil : is' = [] := by
      rw [List.eq_nil_iff_forall_not_mem]
      intro i hi
      have hmem : i ∈ is'.filter fun j => key j = key i :=
        List.mem_filter.mpr ⟨hi, decide_eq_true rfl⟩
      rw [← horder] at hmem
      exact List.not_mem_nil hmem
    rw [hnil]
    exact .refl _
  | cons i is ih =>
    have hi := (horder (key i)).symm
    rw [List.filter_cons_of_pos (by simp)] at hi
    obtain ⟨before, after, rfl, hbefore, -, -⟩ := List.filter_eq_cons_iff.mp hi
    have hne : ∀ j ∈ before, key j ≠ key i := by
      intro j hj
      simpa using hbefore j hj
    have hrest : ∀ k, is.filter (fun i => key i = k) =
        (before ++ after).filter (fun i => key i = k) := by
      intro k
      have hk := horder k
      rw [List.filter_append, List.filter_cons, List.filter_cons] at hk
      rw [List.filter_append]
      split at hk
      · rename_i hik
        have hnone : before.filter (fun j => key j = k) = [] := by
          rw [List.filter_eq_nil_iff]
          intro j hj
          have hkey : key i = k := of_decide_eq_true hik
          simpa [← hkey] using hne j hj
        rw [hnone] at hk ⊢
        exact (List.cons.inj hk).2
      · exact hk
    exact (SameOutcome.cons i (ih hrest (step i s).1)).trans
      ⟨(h.move_front hne after s).1.symm, fun k => ((h.move_front hne after s).2 k).symm⟩

end Independent

end Trace
