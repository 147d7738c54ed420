/-
This file builds the theory of the pieces of a list between separators.

A word stands in a list when it is a part of it with a separator, or an end of the
list, on either side. The pieces between the separators are the words without a
separator that stand in the list, and the pieces of a word that stands in a list
are pieces of the list.
-/

import Mathlib.Data.List.Basic

namespace SeparatedWords

variable {Letter : Type*} {separates : Letter → Bool}

/-- The word is a part of the text, between separators or the ends of the text. -/
def StandsIn (separates : Letter → Bool) (word text : List Letter) : Prop :=
  ∃ before after, text = before ++ word ++ after ∧
    (∀ letter ∈ before.getLast?, separates letter = true) ∧
    ∀ letter ∈ after.head?, separates letter = true

theorem standsIn_self (text : List Letter) : StandsIn separates text text :=
  ⟨[], [], (List.append_nil text).symm, nofun, nofun⟩

/-- After a separator a list goes on like a text of its own. -/
theorem StandsIn.after {word text : List Letter} {letter : Letter} (before : List Letter)
    (separator : separates letter = true) (stands : StandsIn separates word text) :
    StandsIn separates word (before ++ letter :: text) := by
  obtain ⟨inside, after, rfl, opens, closes⟩ := stands
  refine ⟨before ++ letter :: inside, after, by simp, fun last member => ?_, closes⟩
  rw [List.getLast?_append_of_ne_nil _ (List.cons_ne_nil _ _)] at member
  cases inside with
  | nil =>
    obtain rfl := Option.some.inj member
    exact separator
  | cons first rest => exact opens last (by rwa [List.getLast?_cons_cons] at member)

/-- The pieces of a word that stands in a text are pieces of the text. -/
theorem StandsIn.splitOnP_subset {word text : List Letter} (stands : StandsIn separates word text) :
    word.splitOnP separates ⊆ text.splitOnP separates := by
  obtain ⟨before, after, rfl, opens, closes⟩ := stands
  have closed : word.splitOnP separates ⊆ (word ++ after).splitOnP separates := by
    cases after with
    | nil => rw [List.append_nil]; exact List.Subset.refl _
    | cons letter rest =>
      rw [List.splitOnP_append_cons word rest (closes letter rfl)]
      exact List.subset_append_left _ _
  rw [List.append_assoc]
  rcases List.eq_nil_or_concat before with rfl | ⟨init, letter, rfl⟩
  · exact closed
  · have separator : separates letter = true := opens letter (by simp)
    rw [List.concat_eq_append, List.append_assoc, List.singleton_append,
      List.splitOnP_append_cons init _ separator]
    exact List.Subset.trans closed (List.subset_append_right _ _)

/-- A text has no separator, or a first one. -/
theorem eq_or_exists_separator (separates : Letter → Bool) (text : List Letter) :
    (∀ letter ∈ text, separates letter = false) ∨
      ∃ word letter rest, text = word ++ letter :: rest ∧ separates letter = true ∧
        ∀ other ∈ word, separates other = false := by
  induction text with
  | nil => exact Or.inl nofun
  | cons first rest inductionHypothesis =>
    cases separator : separates first with
    | true => exact Or.inr ⟨[], first, rest, rfl, separator, nofun⟩
    | false =>
      rcases inductionHypothesis with free | ⟨word, letter, after, rfl, separator', free⟩
      · exact Or.inl (List.forall_mem_cons.mpr ⟨separator, free⟩)
      · exact Or.inr ⟨first :: word, letter, after, rfl, separator',
          List.forall_mem_cons.mpr ⟨separator, free⟩⟩

/-- The pieces of a text are the words without a separator that stand in it. -/
theorem mem_splitOnP_iff {word text : List Letter} : word ∈ text.splitOnP separates ↔
    (∀ letter ∈ word, separates letter = false) ∧ StandsIn separates word text := by
  constructor
  · intro piece
    induction length : text.length using Nat.strongRecOn generalizing text with
    | ind size inductionHypothesis =>
      rcases eq_or_exists_separator separates text with free |
        ⟨first, letter, rest, rfl, separator, free⟩
      · rw [List.splitOnP_eq_singleton free, List.mem_singleton] at piece
        subst piece
        exact ⟨free, standsIn_self word⟩
      · rw [List.splitOnP_append_cons_of_forall_mem free letter separator] at piece
        rcases List.mem_cons.mp piece with rfl | later
        · refine ⟨free, [], letter :: rest, rfl, nofun, fun other member => ?_⟩
          obtain rfl := Option.some.inj member
          exact separator
        · have smaller : rest.length < size := by
            rw [← length, List.length_append, List.length_cons]
            omega
          obtain ⟨plain, stands⟩ := inductionHypothesis rest.length smaller later rfl
          exact ⟨plain, stands.after first separator⟩
  · rintro ⟨plain, stands⟩
    refine stands.splitOnP_subset ?_
    rw [List.splitOnP_eq_singleton plain]
    exact List.mem_singleton_self word

end SeparatedWords
