import Mathlib.Tactic.Linarith
import Mathlib.Tactic.Ring

/-! A receiver that records a miss whenever a period and a tolerance have passed, and then moves
its reference time on by one period. -/
namespace Watchdog

variable {period tolerance since clock clock' last now : ℤ} {outcome results : List Bool}
  {lost n : ℕ}

/-- After a message at `since` that left the results `outcome`, `lost` misses were recorded, all
of them at readings of at most `clock`. -/
structure Follows (period tolerance : ℤ) (outcome : List Bool) (since clock last : ℤ)
    (results : List Bool) (lost : ℕ) : Prop where
  results : results = outcome ++ List.replicate lost false
  last : last = since + period * lost
  late : 0 < lost → since + period * lost + tolerance < clock

theorem follows_start (period tolerance since clock : ℤ) (outcome : List Bool) :
    Follows period tolerance outcome since clock since outcome 0 where
  results := by simp
  last := by simp
  late := by simp

theorem Follows.mono (h : Follows period tolerance outcome since clock last results lost)
    (hle : clock ≤ clock') : Follows period tolerance outcome since clock' last results lost where
  results := h.results
  last := h.last
  late hpos := (h.late hpos).trans_le hle

theorem Follows.miss (h : Follows period tolerance outcome since clock last results lost)
    (hover : now > last + period + tolerance) (hclock : now ≤ clock) :
    Follows period tolerance outcome since clock (last + period) (results ++ [false])
      (lost + 1) where
  results := by rw [h.results, List.append_assoc, List.replicate_succ']
  last := by
    rw [h.last]
    push_cast
    ring
  late _ := by
    have hnext : since + period * ((lost + 1 : ℕ) : ℤ) = last + period := by
      rw [h.last]
      push_cast
      ring
    rw [hnext]
    exact hover.trans_le hclock

/-- Up to the tolerance of the deadline number `n + 1`, there were at most `n` misses. -/
theorem Follows.lost_le (h : Follows period tolerance outcome since clock last results lost)
    (hperiod : 0 < period) (hclock : clock ≤ since + period * (n + 1) + tolerance) :
    lost ≤ n := by
  by_contra hgt
  have hlate := h.late (by omega)
  have hmore : (n + 1 : ℤ) ≤ lost := by omega
  have := Int.mul_le_mul_of_nonneg_left hmore hperiod.le
  linarith

/-! ### Messages under way -/

section Paced

variable {κ : Type*} {omits : ℕ → ℕ → Prop} {code : ℕ → κ} {outcome' : List Bool}
  {before after : Option ℤ} {arrival : ℤ} {msg : κ} {queue rest : List (κ × ℤ)}

/-- Where the receiver stands. Without a reference time it does not watch. -/
def Tracks (period tolerance : ℤ) (outcome : List Bool) (before : Option ℤ) (clock last : ℤ)
    (results : List Bool) : Prop :=
  match before with
  | none => results = outcome
  | some since => ∃ lost, Follows period tolerance outcome since clock last results lost

/-- Numbered messages with their arrival times, each due by the deadline that its number and the
arrival before it set. The first of them finds the outcome `outcome`, and the last leaves
`outcome'`; numbers in between that have no message were never sent. From number `i` on, `n`
numbers may be left out if `omits i n`. -/
inductive Paced (period tolerance : ℤ) (omits : ℕ → ℕ → Prop) (code : ℕ → κ) :
    List Bool → Option ℤ → List (κ × ℤ) → List Bool → Option ℤ → Prop
  | nil (outcome : List Bool) (before : Option ℤ) :
      Paced period tolerance omits code outcome before [] outcome before
  | cons {outcome outcome' : List Bool} {before after : Option ℤ} {arrival : ℤ}
      {rest : List (κ × ℤ)} (n : ℕ) (homits : omits outcome.length n)
      (hdue : ∀ since ∈ before, arrival ≤ since + period * (n + 1) + tolerance)
      (h : Paced period tolerance omits code (outcome ++ List.replicate n false ++ [true])
        (some arrival) rest outcome' after) :
      Paced period tolerance omits code outcome before
        ((code (outcome.length + n), arrival) :: rest) outcome' after

theorem Paced.snoc (h : Paced period tolerance omits code outcome before queue outcome' after)
    {n : ℕ} {arrival : ℤ} (homits : omits outcome'.length n)
    (hdue : ∀ since ∈ after, arrival ≤ since + period * (n + 1) + tolerance) :
    Paced period tolerance omits code outcome before
      (queue ++ [(code (outcome'.length + n), arrival)])
      (outcome' ++ List.replicate n false ++ [true]) (some arrival) := by
  induction h with
  | nil outcome before => exact .cons n homits hdue (.nil _ _)
  | cons k hk hk' _ ih => exact .cons k hk hk' (ih homits hdue)

/-- Messages that are sent at once only wait for the first of them. -/
theorem Paced.burst (h : Paced period tolerance omits code outcome before queue outcome' after)
    (homits : omits outcome'.length n) (hzero : ∀ i, omits i 0)
    (hdue : ∀ since ∈ after, arrival ≤ since + period * (n + 1) + tolerance)
    (hpos : 0 ≤ period + tolerance) (k : ℕ) :
    Paced period tolerance omits code outcome before
      (queue ++ (List.range (k + 1)).map fun j => (code (outcome'.length + n + j), arrival))
      (outcome' ++ List.replicate n false ++ List.replicate (k + 1) true) (some arrival) := by
  induction k with
  | zero => exact h.snoc homits hdue
  | succ k ih =>
    have hat_once : ∀ since ∈ some arrival,
        arrival ≤ since + period * ((0 : ℕ) + 1) + tolerance := by
      intro since hsince
      obtain rfl := Option.some.inj hsince
      push_cast
      linarith
    have hnext := ih.snoc (hzero _) hat_once
    simp only [List.length_append, List.length_replicate, List.replicate_zero, List.append_nil,
      List.append_assoc, Nat.add_zero] at hnext
    have hsucc : List.replicate (k + 1 + 1) true = List.replicate (k + 1) true ++ [true] :=
      List.replicate_succ'
    rw [List.range_succ, List.map_append, List.map_singleton, hsucc]
    simpa only [List.append_assoc, Nat.add_assoc] using hnext

theorem Paced.outcome_le
    (h : Paced period tolerance omits code outcome before queue outcome' after) :
    outcome <+: outcome' := by
  induction h with
  | nil => exact List.prefix_rfl
  | cons n _ _ _ ih =>
    rw [List.append_assoc] at ih
    exact (List.prefix_append _ _).trans ih

theorem Paced.uncons
    (h : Paced period tolerance omits code outcome before ((msg, arrival) :: rest) outcome' after) :
    ∃ n : ℕ, msg = code (outcome.length + n) ∧ omits outcome.length n ∧
      (∀ since ∈ before, arrival ≤ since + period * (n + 1) + tolerance) ∧
      Paced period tolerance omits code (outcome ++ List.replicate n false ++ [true])
        (some arrival) rest outcome' after := by
  cases h with
  | cons n homits hdue h => exact ⟨n, rfl, homits, hdue, h⟩

/-- When the next message comes, only numbers skipped before it are taken for lost. -/
theorem Tracks.receive (h : Tracks period tolerance outcome before clock last results)
    (hperiod : 0 < period)
    (hdue : ∀ since ∈ before, arrival ≤ since + period * (n + 1) + tolerance)
    (hclock : clock ≤ arrival) :
    ∃ lost ≤ n, results = outcome ++ List.replicate lost false := by
  cases before with
  | none => exact ⟨0, n.zero_le, by simpa [Tracks] using h⟩
  | some since =>
    obtain ⟨lost, h⟩ := h
    exact ⟨lost, h.lost_le hperiod (hclock.trans (hdue since rfl)), h.results⟩

theorem tracks_arrival (period tolerance arrival clock : ℤ) (outcome : List Bool) :
    Tracks period tolerance outcome (some arrival) clock arrival outcome :=
  ⟨0, follows_start period tolerance arrival clock outcome⟩

theorem Tracks.mono (h : Tracks period tolerance outcome before clock last results)
    (hle : clock ≤ clock') : Tracks period tolerance outcome before clock' last results := by
  cases before with
  | none => exact h
  | some since => exact h.imp fun _ h => h.mono hle

theorem Tracks.miss {since : ℤ}
    (h : Tracks period tolerance outcome (some since) clock last results)
    (hover : now > last + period + tolerance) (hclock : now ≤ clock) :
    Tracks period tolerance outcome (some since) clock (last + period) (results ++ [false]) := by
  obtain ⟨lost, h⟩ := h
  exact ⟨lost + 1, h.miss hover hclock⟩

end Paced

end Watchdog
