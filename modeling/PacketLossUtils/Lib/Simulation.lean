import PacketLossUtils.Lib.Trace

/-! Runs of one machine that another machine follows. -/
namespace Trace

variable {σ τ ι κ ε ω α : Type*} {step : ι → σ → σ × List ε} {step' : κ → τ → τ × List ω}
  {Admits : ι → σ → Prop} {Related : σ → τ → Prop} {image : ι → σ → List κ}
  {observe : List ε → List α} {observe' : List ω → List α} {is : List ι} {s : σ} {t : τ}

/-- What is observed of a log is put together from what is observed of its parts. -/
def Additive (observe : List ε → List α) : Prop :=
  ∀ xs ys, observe (xs ++ ys) = observe xs ++ observe ys

theorem Additive.nil (h : Additive observe) : observe [] = [] := by
  have hnil := h [] []
  rw [List.append_nil] at hnil
  exact List.self_eq_append_left.mp hnil

/-- For an input that is admitted the other machine handles the inputs `image`. That leads to
states that are related again, and the same is observed of the two logs. -/
structure Simulation (step : ι → σ → σ × List ε) (step' : κ → τ → τ × List ω)
    (Admits : ι → σ → Prop) (Related : σ → τ → Prop) (image : ι → σ → List κ)
    (observe : List ε → List α) (observe' : List ω → List α) : Prop where
  related : ∀ i s t, Admits i s → Related s t →
    Related (step i s).1 (run step' (image i s) t).1
  observed : ∀ i s t, Admits i s → Related s t →
    observe (step i s).2 = observe' (run step' (image i s) t).2

/-- The inputs that the other machine handles along a run. -/
def images (step : ι → σ → σ × List ε) (image : ι → σ → List κ) : List ι → σ → List κ
  | [], _ => []
  | i :: is, s => image i s ++ images step image is (step i s).1

theorem images_filter (p : ι → Prop) [DecidablePred p] (is : List ι) (s : σ) :
    images step (fun i _ => if p i then [i] else []) is s = is.filter p := by
  induction is generalizing s with
  | nil => rfl
  | cons i is ih =>
    rw [images, ih, List.filter_cons]
    by_cases hp : p i <;> simp [hp]

theorem images_map (f : ι → κ) (is : List ι) (s : σ) :
    images step (fun i _ => [f i]) is s = is.map f := by
  induction is generalizing s with
  | nil => rfl
  | cons i is ih => rw [images, ih, List.map_cons, List.singleton_append]

theorem Simulation.run (h : Simulation step step' Admits Related image observe observe')
    (hobserve : Additive observe) (hobserve' : Additive observe')
    (hadmits : Along step Admits is s) (hrelated : Related s t) :
    Related (run step is s).1 (run step' (images step image is s) t).1 ∧
      observe (run step is s).2 = observe' (run step' (images step image is s) t).2 := by
  induction is generalizing s t with
  | nil =>
    refine ⟨hrelated, ?_⟩
    rw [run_nil, images, run_nil, hobserve.nil, hobserve'.nil]
  | cons i is ih =>
    obtain ⟨hi, hrest⟩ := hadmits
    obtain ⟨hend, hlog⟩ := ih hrest (h.related i s t hi hrelated)
    rw [images, run_append]
    refine ⟨hend, ?_⟩
    rw [run_cons, hobserve, hobserve', h.observed i s t hi hrelated, hlog]

/-- A function of the state that commutes with every step commutes with runs. -/
theorem run_commute {step' : ι → τ → τ × List ε} {f : σ → τ}
    (hstep : ∀ i s, step' i (f s) = (f (step i s).1, (step i s).2)) (is : List ι) (s : σ) :
    run step' is (f s) = (f (run step is s).1, (run step is s).2) := by
  induction is generalizing s with
  | nil => rfl
  | cons i is ih => rw [run_cons, run_cons, hstep, ih]

/-- Steps that all do `op 1` do `op n` together. -/
theorem run_at_once {step' : ι → τ → τ × List ε} {f : σ → τ} {op : ℕ → σ → σ × List ε}
    (hstep : ∀ i s, step' i (f s) = (f (op 1 s).1, (op 1 s).2))
    (hop : ∀ n s, op (n + 1) s = ((op n (op 1 s).1).1, (op 1 s).2 ++ (op n (op 1 s).1).2))
    (i : ι) (is : List ι) (s : σ) : run step' (i :: is) (f s) =
      (f (op (is.length + 1) s).1, (op (is.length + 1) s).2) := by
  induction is generalizing i s with
  | nil => rw [run_singleton, hstep, List.length_nil, Nat.zero_add]
  | cons j is ih => rw [run_cons, hstep, ih, List.length_cons, hop (is.length + 1) s]

end Trace
