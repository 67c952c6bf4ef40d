import Mathlib.Tactic.Common

/-! Machines whose steps return the next state and log what they emit, in order. -/
namespace Trace

variable {σ τ ι ε : Type*} {step : ι → σ → σ × List ε}

/-- Handle the inputs one after the other and concatenate the logs. -/
def run (step : ι → σ → σ × List ε) : List ι → σ → σ × List ε
  | [], s => (s, [])
  | i :: is, s =>
    let first := step i s
    let rest := run step is first.1
    (rest.1, first.2 ++ rest.2)

@[simp] theorem run_nil (s : σ) : run step [] s = (s, []) := rfl

theorem run_cons (i : ι) (is : List ι) (s : σ) :
    run step (i :: is) s =
      ((run step is (step i s).1).1, (step i s).2 ++ (run step is (step i s).1).2) := rfl

theorem run_singleton (i : ι) (s : σ) : run step [i] s = step i s := by
  rw [run_cons, run_nil, List.append_nil]

theorem run_append (is js : List ι) (s : σ) :
    run step (is ++ js) s =
      ((run step js (run step is s).1).1,
        (run step is s).2 ++ (run step js (run step is s).1).2) := by
  induction is generalizing s with
  | nil => rfl
  | cons i is ih =>
    rw [List.cons_append, run_cons, run_cons, ih, List.append_assoc]

/-- A relation between the state and the log so far that every step keeps is kept by a run. -/
theorem run_invariant {I : σ → List ε → Prop} {is : List ι} {s : σ} (h : I s [])
    (hstep : ∀ i ∈ is, ∀ s log, I s log → I (step i s).1 (log ++ (step i s).2)) :
    I (run step is s).1 (run step is s).2 := by
  have hrun : ∀ log, I s log → I (run step is s).1 (log ++ (run step is s).2) := by
    clear h
    induction is generalizing s with
    | nil =>
      intro log h
      simpa using h
    | cons i is ih =>
      intro log h
      rw [run_cons, ← List.append_assoc]
      apply ih
      · intro j hj
        exact hstep j (List.mem_cons_of_mem i hj)
      · exact hstep i List.mem_cons_self s log h
  exact hrun [] h

/-- The states reached from `start` when every input is admitted in the state it is handled in. -/
inductive Reachable (step : ι → σ → σ × List ε) (Admits : ι → σ → Prop) (start : σ) : σ → Prop
  | start : Reachable step Admits start start
  | step {s : σ} (i : ι) (h : Reachable step Admits start s) (hi : Admits i s) :
      Reachable step Admits start (step i s).1

theorem Reachable.invariant {Admits : ι → σ → Prop} {start s : σ} {I : σ → Prop}
    (h : Reachable step Admits start s) (hstart : I start)
    (hstep : ∀ i s, Admits i s → I s → I (step i s).1) : I s := by
  induction h with
  | start => exact hstart
  | step i _ hi ih => exact hstep i _ hi ih

theorem Reachable.trans {Admits : ι → σ → Prop} {start s s' : σ}
    (h : Reachable step Admits start s) (h' : Reachable step Admits s s') :
    Reachable step Admits start s' := by
  induction h' with
  | start => exact h
  | step i _ hi ih => exact ih.step i hi

/-- Every input of a run meets a condition on the state it is handled in. -/
def Along (step : ι → σ → σ × List ε) (P : ι → σ → Prop) : List ι → σ → Prop
  | [], _ => True
  | i :: is, s => P i s ∧ Along step P is (step i s).1

/-- Conditions that agree in all states that can be reached agree along all runs. -/
theorem along_congr {P Q : ι → σ → Prop} {is : List ι} {s : σ}
    (h : ∀ i s', Reachable step (fun _ _ => True) s s' → (P i s' ↔ Q i s')) :
    Along step P is s ↔ Along step Q is s := by
  induction is generalizing s with
  | nil => exact Iff.rfl
  | cons i is ih =>
    have hfirst : Reachable step (fun _ _ => True) s (step i s).1 := .step i .start trivial
    exact and_congr (h i s .start) (ih fun j s' hs' => h j s' (hfirst.trans hs'))

end Trace
