/-
This file compares two orders of the leaves of a forest: the order in which they
stand, and the order that takes all leaves of a level before it goes into the nodes
of that level.

The two agree when no leaf comes after a node with leaves on one level. Where one
does, the leaves can be told apart by their values: some other values of the leaves
give two different lists.
-/

import Mathlib.Data.List.Basic

namespace LeafOrder

/-- The leaves and the nodes of a level, in the order in which they stand. -/
inductive Forest (Leaf : Type*)
  | nil
  | leaf (value : Leaf) (rest : Forest Leaf)
  | node (inside rest : Forest Leaf)

namespace Forest

open scoped List

variable {Leaf Other : Type*}

/-- All leaves, in the order in which they stand. -/
def leaves : Forest Leaf → List Leaf
  | nil => []
  | leaf value rest => value :: rest.leaves
  | node inside rest => inside.leaves ++ rest.leaves

/-- The leaves of this level. -/
def own : Forest Leaf → List Leaf
  | nil => []
  | leaf value rest => value :: rest.own
  | node _ rest => rest.own

/-- The leaves under the nodes of this level; each node's own leaves come first. -/
def nested : Forest Leaf → List Leaf
  | nil => []
  | leaf _ rest => rest.nested
  | node inside rest => inside.own ++ inside.nested ++ rest.nested

/-- All leaves, those of a level before those of its nodes. -/
def ownFirst (forest : Forest Leaf) : List Leaf := forest.own ++ forest.nested

/-- No leaf comes after a node with leaves on one level. -/
def LeavesFirst : Forest Leaf → Prop
  | nil => True
  | leaf _ rest => rest.LeavesFirst
  | node inside rest =>
    inside.LeavesFirst ∧ rest.LeavesFirst ∧ (inside.leaves = [] ∨ rest.own = [])

instance decidableLeavesFirst : (forest : Forest Leaf) → Decidable forest.LeavesFirst
  | nil => .isTrue trivial
  | leaf _ rest => rest.decidableLeavesFirst
  | node inside rest =>
    have := inside.decidableLeavesFirst
    have := rest.decidableLeavesFirst
    inferInstanceAs (Decidable (inside.LeavesFirst ∧ rest.LeavesFirst ∧ (_ ∨ _)))

def map (relabel : Leaf → Other) : Forest Leaf → Forest Other
  | nil => nil
  | leaf value rest => leaf (relabel value) (rest.map relabel)
  | node inside rest => node (inside.map relabel) (rest.map relabel)

/-- The forest without the values of its leaves. -/
def shape (forest : Forest Leaf) : Forest Unit := forest.map fun _ => ()

/-! ### Relabelling -/

theorem map_map {Third : Type*} (relabel : Leaf → Other) (again : Other → Third)
    (forest : Forest Leaf) : (forest.map relabel).map again = forest.map (again ∘ relabel) := by
  induction forest with
  | nil => rfl
  | leaf value rest restHypothesis => simp only [map, restHypothesis, Function.comp]
  | node inside rest insideHypothesis restHypothesis =>
    simp only [map, insideHypothesis, restHypothesis]

@[simp] theorem leaves_map (relabel : Leaf → Other) (forest : Forest Leaf) :
    (forest.map relabel).leaves = forest.leaves.map relabel := by
  induction forest with
  | nil => rfl
  | leaf value rest restHypothesis => simp only [map, leaves, restHypothesis, List.map_cons]
  | node inside rest insideHypothesis restHypothesis =>
    simp only [map, leaves, insideHypothesis, restHypothesis, List.map_append]

@[simp] theorem own_map (relabel : Leaf → Other) (forest : Forest Leaf) :
    (forest.map relabel).own = forest.own.map relabel := by
  induction forest with
  | nil => rfl
  | leaf value rest restHypothesis => simp only [map, own, restHypothesis, List.map_cons]
  | node inside rest insideHypothesis restHypothesis => simp only [map, own, restHypothesis]

@[simp] theorem nested_map (relabel : Leaf → Other) (forest : Forest Leaf) :
    (forest.map relabel).nested = forest.nested.map relabel := by
  induction forest with
  | nil => rfl
  | leaf value rest restHypothesis => simp only [map, nested, restHypothesis]
  | node inside rest insideHypothesis restHypothesis =>
    simp only [map, nested, own_map, insideHypothesis, restHypothesis, List.map_append]

@[simp] theorem ownFirst_map (relabel : Leaf → Other) (forest : Forest Leaf) :
    (forest.map relabel).ownFirst = forest.ownFirst.map relabel := by
  simp only [ownFirst, own_map, nested_map, List.map_append]

@[simp] theorem shape_map (relabel : Leaf → Other) (forest : Forest Leaf) :
    (forest.map relabel).shape = forest.shape :=
  map_map relabel _ forest

theorem leavesFirst_map {relabel : Leaf → Other} {forest : Forest Leaf} :
    (forest.map relabel).LeavesFirst ↔ forest.LeavesFirst := by
  induction forest with
  | nil => exact Iff.rfl
  | leaf value rest restHypothesis => exact restHypothesis
  | node inside rest insideHypothesis restHypothesis =>
    simp only [map, LeavesFirst, insideHypothesis, restHypothesis, leaves_map, own_map,
      List.map_eq_nil_iff]

section SameShape

variable {first : Forest Leaf} {second : Forest Other}

/-- Forests of the same shape have as many leaves, on their first level and in all. -/
theorem length_eq_of_shape (same : first.shape = second.shape) :
    first.own.length = second.own.length ∧ first.leaves.length = second.leaves.length := by
  have level := congrArg (fun forest : Forest Unit => forest.own.length) same
  have all := congrArg (fun forest : Forest Unit => forest.leaves.length) same
  simp only [shape, own_map, leaves_map, List.length_map] at level all
  exact ⟨level, all⟩

theorem own_eq_nil_of_shape (same : first.shape = second.shape) (none : first.own = []) :
    second.own = [] := by
  have length := (length_eq_of_shape same).1
  rw [none] at length
  exact List.eq_nil_of_length_eq_zero length.symm

theorem leaves_eq_nil_of_shape (same : first.shape = second.shape) (none : first.leaves = []) :
    second.leaves = [] := by
  have length := (length_eq_of_shape same).2
  rw [none] at length
  exact List.eq_nil_of_length_eq_zero length.symm

theorem leavesFirst_of_shape (same : first.shape = second.shape) (early : first.LeavesFirst) :
    second.LeavesFirst := by
  have shaped : first.shape.LeavesFirst := leavesFirst_map.mpr early
  rw [same] at shaped
  exact leavesFirst_map.mp shaped

end SameShape

/-! ### The two orders -/

/-- Both orders have each leaf once. -/
theorem ownFirst_perm_leaves (forest : Forest Leaf) : forest.ownFirst ~ forest.leaves := by
  induction forest with
  | nil => exact List.Perm.refl _
  | leaf value rest restHypothesis => exact restHypothesis.cons value
  | node inside rest insideHypothesis restHypothesis =>
    have unfolded : (node inside rest).ownFirst = rest.own ++ inside.ownFirst ++ rest.nested :=
      (List.append_assoc _ _ _).symm
    calc
      (node inside rest).ownFirst ~ rest.own ++ inside.ownFirst ++ rest.nested := .of_eq unfolded
      _ ~ inside.ownFirst ++ rest.own ++ rest.nested := List.perm_append_comm.append_right _
      _ ~ inside.ownFirst ++ rest.ownFirst := .of_eq (List.append_assoc _ _ _)
      _ ~ inside.leaves ++ rest.leaves := insideHypothesis.append restHypothesis

/-- A node whose leaves do not come before leaves of its level is read where it stands. -/
theorem ownFirst_node {inside rest : Forest Leaf} (apart : inside.leaves = [] ∨ rest.own = []) :
    (node inside rest).ownFirst = inside.ownFirst ++ rest.ownFirst := by
  have unfolded : (node inside rest).ownFirst = rest.own ++ (inside.ownFirst ++ rest.nested) := rfl
  rcases apart with empty | none
  · have silent : inside.ownFirst = [] :=
      List.perm_nil.mp (empty ▸ ownFirst_perm_leaves inside)
    rw [unfolded, silent, List.nil_append, List.nil_append]
    rfl
  · have restFirst : rest.ownFirst = rest.nested := by
      rw [ownFirst, none, List.nil_append]
    rw [unfolded, restFirst, none, List.nil_append]

theorem LeavesFirst.leaves_eq {forest : Forest Leaf} (early : forest.LeavesFirst) :
    forest.leaves = forest.ownFirst := by
  induction forest with
  | nil => rfl
  | leaf value rest restHypothesis => exact congrArg (value :: ·) (restHypothesis early)
  | node inside rest insideHypothesis restHypothesis =>
    obtain ⟨insideEarly, restEarly, apart⟩ := early
    rw [ownFirst_node apart, ← insideHypothesis insideEarly, ← restHypothesis restEarly]
    rfl

/-- Where a leaf comes too late, some values of the leaves show it. -/
theorem exists_leaves_ne (forest : Forest Leaf) (late : ¬ forest.LeavesFirst) :
    ∃ labelled : Forest Bool, labelled.shape = forest.shape ∧
      labelled.leaves ≠ labelled.ownFirst := by
  induction forest with
  | nil => exact absurd trivial late
  | leaf value rest restHypothesis =>
    obtain ⟨labelled, same, differ⟩ := restHypothesis late
    refine ⟨leaf true labelled, congrArg (leaf ()) same, fun equal => differ ?_⟩
    exact (List.cons.inj equal).2
  | node inside rest insideHypothesis restHypothesis =>
    by_cases apart : inside.leaves = [] ∨ rest.own = []
    · -- both parts are read in turn, so a difference in either of them stays one
      have either : ¬ inside.LeavesFirst ∨ ¬ rest.LeavesFirst := by
        by_contra both
        rw [not_or, not_not, not_not] at both
        exact late ⟨both.1, both.2, apart⟩
      have together {insideLabelled restLabelled : Forest Bool}
          (insideSame : insideLabelled.shape = inside.shape)
          (restSame : restLabelled.shape = rest.shape)
          (equal : (node insideLabelled restLabelled).leaves =
            (node insideLabelled restLabelled).ownFirst) :
          insideLabelled.leaves = insideLabelled.ownFirst ∧
            restLabelled.leaves = restLabelled.ownFirst := by
        have stillApart : insideLabelled.leaves = [] ∨ restLabelled.own = [] :=
          apart.imp (leaves_eq_nil_of_shape insideSame.symm) (own_eq_nil_of_shape restSame.symm)
        rw [ownFirst_node stillApart] at equal
        exact List.append_inj equal (ownFirst_perm_leaves insideLabelled).length_eq.symm
      rcases either with insideLate | restLate
      · obtain ⟨labelled, same, differ⟩ := insideHypothesis insideLate
        have restSame := shape_map (fun _ => true) rest
        exact ⟨node labelled (rest.map fun _ => true), congrArg₂ node same restSame,
          fun equal => differ (together same restSame equal).1⟩
      · obtain ⟨labelled, same, differ⟩ := restHypothesis restLate
        have insideSame := shape_map (fun _ => true) inside
        exact ⟨node (inside.map fun _ => true) labelled, congrArg₂ node insideSame same,
          fun equal => differ (together insideSame same equal).2⟩
    · -- the first leaf of the node and the first one of the level are told apart
      rw [not_or] at apart
      obtain ⟨first, insideLeaves, leavesEq⟩ := List.exists_cons_of_ne_nil apart.1
      obtain ⟨second, restOwn, ownEq⟩ := List.exists_cons_of_ne_nil apart.2
      refine ⟨node (inside.map fun _ => false) (rest.map fun _ => true),
        congrArg₂ node (shape_map _ inside) (shape_map _ rest), fun equal => ?_⟩
      simp only [leaves, ownFirst, own, leaves_map, own_map, leavesEq, ownEq, List.map_cons,
        List.cons_append, List.cons.injEq] at equal
      exact Bool.false_ne_true equal.1

/-- The leaves of every forest of the shape are read in the order in which they stand if and only
if on no level a leaf comes after a node with leaves. -/
theorem leavesFirst_iff (forest : Forest Leaf) :
    forest.LeavesFirst ↔ ∀ labelled : Forest Bool, labelled.shape = forest.shape →
      labelled.leaves = labelled.ownFirst := by
  constructor
  · intro early labelled same
    exact (leavesFirst_of_shape same.symm early).leaves_eq
  · intro agree
    by_contra late
    obtain ⟨labelled, same, differ⟩ := exists_leaves_ne forest late
    exact differ (agree labelled same)

end Forest

end LeafOrder
