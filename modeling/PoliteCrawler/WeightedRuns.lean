/-
This file builds the theory of lists whose items have a weight, such as the
characters of a text with their number of bytes.

An offset cuts a list when it is the weight of one of its beginnings; any other
offset lies inside an item. An item lies between two offsets that cut the list if
and only if it stands in a run of consecutive items with their difference as its
weight.
-/

import Mathlib.Algebra.BigOperators.Ring.List
import Mathlib.Algebra.Ring.Nat

namespace WeightedRuns

variable {Item : Type*} (weight : Item → Nat)

/-- The weight of a list. -/
def total (items : List Item) : Nat := (items.map weight).sum

@[simp] theorem total_nil : total weight [] = 0 := rfl

@[simp] theorem total_cons (item : Item) (rest : List Item) :
    total weight (item :: rest) = weight item + total weight rest := by
  rw [total, List.map_cons, List.sum_cons, total]

@[simp] theorem total_append (first second : List Item) :
    total weight (first ++ second) = total weight first + total weight second := by
  rw [total, List.map_append, List.sum_append, total, total]

/-- The offset is the weight of a beginning of the list. -/
def CutsAt (offset : Nat) (items : List Item) : Prop :=
  ∃ before after, items = before ++ after ∧ total weight before = offset

/-- The item between two lists stands in a run of consecutive items of the weight. -/
def InRun (size : Nat) (before : List Item) (item : Item) (after : List Item) : Prop :=
  ∃ first left right last, before = first ++ left ∧ after = right ++ last ∧
    total weight (left ++ item :: right) = size

variable {weight}

theorem CutsAt.le_total {offset : Nat} {items : List Item} (cuts : CutsAt weight offset items) :
    offset ≤ total weight items := by
  obtain ⟨before, after, rfl, rfl⟩ := cuts
  rw [total_append]
  exact Nat.le_add_right _ _

/-- When a number divides the weight of every item, it divides the offsets that cut the list. -/
theorem CutsAt.dvd {divisor offset : Nat} {items : List Item} (cuts : CutsAt weight offset items)
    (each : ∀ item ∈ items, divisor ∣ weight item) : divisor ∣ offset := by
  obtain ⟨before, after, rfl, rfl⟩ := cuts
  rw [total]
  refine List.dvd_sum fun part member => ?_
  obtain ⟨item, placed, rfl⟩ := List.mem_map.mp member
  exact each item (List.mem_append_left _ placed)

section Positive

variable (positive : ∀ item, 0 < weight item)

include positive

theorem eq_nil_of_total_eq_zero {items : List Item} (weightless : total weight items = 0) :
    items = [] := by
  cases items with
  | nil => rfl
  | cons item rest =>
    rw [total_cons] at weightless
    exact absurd weightless (Nat.ne_of_gt (Nat.add_pos_left (positive item) _))

/-- Of two beginnings of a list the lighter is a beginning of the other. -/
theorem isPrefix_of_total_le {first second items : List Item} (firstPrefix : first <+: items)
    (secondPrefix : second <+: items) (le : total weight first ≤ total weight second) :
    first <+: second := by
  rcases List.prefix_or_prefix_of_prefix firstPrefix secondPrefix with shorter | ⟨more, rfl⟩
  · exact shorter
  · rw [total_append] at le
    obtain rfl : more = [] := eq_nil_of_total_eq_zero positive (by omega)
    exact ⟨[], by rw [List.append_nil, List.append_nil]⟩

theorem inRun_iff {size : Nat} {before after : List Item} {item : Item} :
    InRun weight size before item after ↔
      ∃ start, CutsAt weight start (before ++ item :: after) ∧
        CutsAt weight (start + size) (before ++ item :: after) ∧
        start ≤ total weight before ∧ total weight before + weight item ≤ start + size := by
  constructor
  · rintro ⟨first, left, right, last, rfl, rfl, whole⟩
    have cut : first ++ left ++ item :: (right ++ last) =
        first ++ (left ++ item :: right) ++ last := by
      simp only [List.append_assoc, List.cons_append]
    refine ⟨total weight first, ⟨first, _, List.append_assoc _ _ _, rfl⟩,
      ⟨_, last, cut, by rw [total_append, whole]⟩, ?_, ?_⟩
    · rw [total_append]
      exact Nat.le_add_right _ _
    · rw [← whole]
      simp only [total_append, total_cons]
      omega
  · rintro ⟨start, ⟨first, rest, firstCut, firstTotal⟩, ⟨upTo, last, lastCut, lastTotal⟩, opens,
      closes⟩
    obtain ⟨left, rfl⟩ : first <+: before :=
      isPrefix_of_total_le positive ⟨rest, firstCut.symm⟩ (List.prefix_append _ _)
        (firstTotal ▸ opens)
    obtain ⟨right, rfl⟩ : first ++ left ++ [item] <+: upTo := by
      refine isPrefix_of_total_le positive ⟨after, ?_⟩ ⟨last, lastCut.symm⟩ ?_
      · rw [List.append_assoc, List.singleton_append]
      · rw [total_append, total_cons, total_nil, lastTotal]
        exact closes
    refine ⟨first, left, right, last, rfl, ?_, ?_⟩
    · simpa only [List.append_assoc, List.cons_append, List.nil_append, List.append_cancel_left_eq,
        List.cons.injEq, true_and] using lastCut
    · simp only [total_append, total_cons, total_nil] at lastTotal ⊢
      omega

end Positive

end WeightedRuns
