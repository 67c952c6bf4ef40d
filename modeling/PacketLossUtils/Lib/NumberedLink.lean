import Mathlib.Logic.Relation
import Mathlib.Order.Nat
import Mathlib.Tactic.Common

/-! A stream of numbered messages over a link that may lose, delay, reorder and duplicate
them. The receiver takes a message only if its number is not below the one it expects. -/

structure NumberedLink (M : Type*) where
  next : ℕ
  sent : List M
  skipped : List ℕ
  expected : ℕ
  accepted : List M

namespace NumberedLink

open Relation

variable {M : Type*} {number : M → ℕ} {l l' : NumberedLink M} {m : M}

def initial : NumberedLink M := ⟨0, [], [], 0, []⟩

/-- The sender uses up a number with every message, sent or not. Delivery takes nothing out of
the link, and a message that is dropped or never delivered is no step. -/
inductive Step (number : M → ℕ) : NumberedLink M → NumberedLink M → Prop
  | send (l : NumberedLink M) {m : M} (hnumber : number m = l.next) :
      Step number l { l with next := l.next + 1, sent := l.sent ++ [m] }
  | skip (l : NumberedLink M) :
      Step number l { l with next := l.next + 1, skipped := l.skipped ++ [l.next] }
  | giveUp (l : NumberedLink M) : Step number l { l with expected := l.expected + 1 }
  | accept (l : NumberedLink M) {m : M} (hsent : m ∈ l.sent) (hnew : l.expected ≤ number m) :
      Step number l { l with expected := number m + 1, accepted := l.accepted ++ [m] }

/-- What holds in every state of the link. -/
structure Sound (number : M → ℕ) (l : NumberedLink M) : Prop where
  sent_lt : ∀ m ∈ l.sent, number m < l.next
  increasing : l.sent.Pairwise fun a b => number a < number b
  skipped_lt : ∀ n ∈ l.skipped, n < l.next
  disjoint : ∀ m ∈ l.sent, number m ∉ l.skipped
  accepted_lt : ∀ m ∈ l.accepted, number m < l.expected
  sublist : l.accepted.Sublist l.sent

theorem sound_initial : Sound number (initial : NumberedLink M) := by
  constructor <;> simp [initial]

/-- In an increasing list, what comes before a message has the smaller numbers. -/
theorem sublist_append_of_lt {xs ys : List M} (hys : ys.Pairwise fun a b => number a < number b)
    (hsub : xs.Sublist ys) (hm : m ∈ ys) (hlt : ∀ x ∈ xs, number x < number m) :
    (xs ++ [m]).Sublist ys := by
  obtain ⟨before, later, rfl⟩ := List.append_of_mem hm
  obtain ⟨xs₁, xs₂, rfl, hsub₁, hsub₂⟩ := List.sublist_append_iff.mp hsub
  have hnone : xs₂ = [] := by
    rw [List.eq_nil_iff_forall_not_mem]
    intro x hx
    have hle := hlt x (by simp [hx])
    rcases List.mem_cons.mp (hsub₂.subset hx) with rfl | hlater
    · omega
    · have hgt := (List.pairwise_cons.mp (List.pairwise_append.mp hys).2.1).1 x hlater
      omega
  rw [hnone, List.append_nil]
  exact hsub₁.append (List.singleton_sublist.mpr List.mem_cons_self)

theorem Sound.step (hl : Sound number l) (h : Step number l l') : Sound number l' := by
  cases h with
  | @send m hnumber =>
    have hlast : ∀ a ∈ l.sent, ∀ b ∈ [m], number a < number b := by
      intro a ha b hb
      rw [List.mem_singleton.mp hb, hnumber]
      exact hl.sent_lt a ha
    refine { hl with
      sent_lt := ?_
      increasing := List.pairwise_append.mpr ⟨hl.increasing, List.pairwise_singleton .., hlast⟩
      skipped_lt := fun n hn => (hl.skipped_lt n hn).trans (Nat.lt_succ_self _)
      disjoint := ?_
      sublist := hl.sublist.trans (List.sublist_append_left ..) }
    · intro a ha
      rcases List.mem_append.mp ha with ha | ha
      · exact (hl.sent_lt a ha).trans (Nat.lt_succ_self _)
      · rw [List.mem_singleton.mp ha, hnumber]
        exact Nat.lt_succ_self _
    · intro a ha hskipped
      rcases List.mem_append.mp ha with ha | ha
      · exact hl.disjoint a ha hskipped
      · rw [List.mem_singleton.mp ha, hnumber] at hskipped
        exact absurd (hl.skipped_lt _ hskipped) (lt_irrefl _)
  | skip =>
    refine { hl with
      sent_lt := fun a ha => (hl.sent_lt a ha).trans (Nat.lt_succ_self _)
      skipped_lt := ?_
      disjoint := ?_ }
    · intro n hn
      rcases List.mem_append.mp hn with hn | hn
      · exact (hl.skipped_lt n hn).trans (Nat.lt_succ_self _)
      · rw [List.mem_singleton.mp hn]
        exact Nat.lt_succ_self _
    · intro a ha hskipped
      rcases List.mem_append.mp hskipped with hskipped | hskipped
      · exact hl.disjoint a ha hskipped
      · exact absurd (List.mem_singleton.mp hskipped) (hl.sent_lt a ha).ne
  | giveUp =>
    exact { hl with accepted_lt := fun a ha => (hl.accepted_lt a ha).trans (Nat.lt_succ_self _) }
  | @accept m hsent hnew =>
    have hlt : ∀ a ∈ l.accepted, number a < number m :=
      fun a ha => (hl.accepted_lt a ha).trans_le hnew
    refine { hl with
      accepted_lt := ?_
      sublist := sublist_append_of_lt hl.increasing hl.sublist hsent hlt }
    intro a ha
    rcases List.mem_append.mp ha with ha | ha
    · exact (hlt a ha).trans (Nat.lt_succ_self _)
    · rw [List.mem_singleton.mp ha]
      exact Nat.lt_succ_self _

/-- Every link that started empty is sound. -/
theorem Sound.of_reachable (h : ReflTransGen (Step number) initial l) : Sound number l := by
  induction h with
  | refl => exact sound_initial
  | tail _ hstep ih => exact ih.step hstep

/-- A message that was not sent is not accepted, and one that was is accepted at most once. -/
theorem Sound.length_le (hl : Sound number l) : l.accepted.length ≤ l.sent.length :=
  hl.sublist.length_le

theorem Sound.nodup (hl : Sound number l) : (l.sent.map number).Nodup :=
  List.pairwise_map.mpr (hl.increasing.imp Nat.ne_of_lt)

theorem Sound.accepted_increasing (hl : Sound number l) :
    l.accepted.Pairwise fun a b => number a < number b :=
  hl.increasing.sublist hl.sublist

theorem Sound.accepted_not_skipped (hl : Sound number l) (hm : m ∈ l.accepted) :
    number m ∉ l.skipped :=
  hl.disjoint m (hl.sublist.subset hm)

/-- The message accepted last has the largest number. -/
theorem Sound.le_last (hl : Sound number l) (hm : l.accepted.getLast? = some m) :
    ∀ a ∈ l.accepted, number a ≤ number m := by
  obtain ⟨init, hinit⟩ := List.getLast?_eq_some_iff.mp hm
  have hincreasing := hl.accepted_increasing
  rw [hinit, List.pairwise_append] at hincreasing
  intro a ha
  rw [hinit] at ha
  rcases List.mem_append.mp ha with ha | ha
  · exact (hincreasing.2.2 a ha m (by simp)).le
  · rw [List.mem_singleton.mp ha]

end NumberedLink
