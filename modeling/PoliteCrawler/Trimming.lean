/-
This file is about texts without blank letters at their ends, over any letters
and any notion of blank.

Stripping a text of the blank letters at its ends leaves a trimmed text. Nonempty
trimmed texts joined by any separator give a trimmed text.
-/

import Mathlib.Data.List.Basic

namespace Trimming

variable {Letter : Type*} (blank : Letter → Bool)

/-- Neither end of the text is blank. -/
structure Trimmed (text : List Letter) : Prop where
  first : ∀ letter ∈ text.head?, blank letter = false
  last : ∀ letter ∈ text.getLast?, blank letter = false

/-- The text without the blank letters at its ends. -/
def strip (text : List Letter) : List Letter :=
  ((text.dropWhile blank).reverse.dropWhile blank).reverse

variable {blank}

theorem trimmed_nil : Trimmed blank [] where
  first _ member := by cases member
  last _ member := by cases member

theorem strip_begins (text : List Letter) : strip blank text <+: text.dropWhile blank := by
  rw [strip, ← List.reverse_suffix, List.reverse_reverse]
  exact List.dropWhile_suffix _

theorem strip_subset (text : List Letter) : strip blank text ⊆ text :=
  List.Subset.trans (strip_begins text).subset (List.dropWhile_suffix _).subset

theorem head?_dropWhile {text : List Letter} :
    ∀ letter ∈ (text.dropWhile blank).head?, blank letter = false := by
  intro letter member
  have stops := List.head?_dropWhile_not blank text
  rw [Option.mem_def.mp member] at stops
  exact stops

/-- A text that begins with no blank letter still does so when its end is cut off. -/
theorem head?_of_prefix {beginning text : List Letter} (cut : beginning <+: text)
    (first : ∀ letter ∈ text.head?, blank letter = false) :
    ∀ letter ∈ beginning.head?, blank letter = false := by
  obtain ⟨rest, rfl⟩ := cut
  cases beginning with
  | nil => exact fun letter member => by cases member
  | cons letter beginning => exact first

theorem trimmed_strip (text : List Letter) : Trimmed blank (strip blank text) where
  first := head?_of_prefix (strip_begins text) head?_dropWhile
  last := by
    rw [strip, List.getLast?_reverse]
    exact head?_dropWhile

/-- What stands between two trimmed texts does not matter. -/
theorem Trimmed.append {front back : List Letter} (first : Trimmed blank front)
    (last : Trimmed blank back) (some : front ≠ []) (more : back ≠ []) (middle : List Letter) :
    Trimmed blank (front ++ middle ++ back) where
  first letter member := by
    rw [List.append_assoc, List.head?_append_of_ne_nil _ some] at member
    exact first.first letter member
  last letter member := by
    rw [List.getLast?_append_of_ne_nil _ more] at member
    exact last.last letter member

theorem trimmed_intercalate (separator : List Letter) {pieces : List (List Letter)}
    (each : ∀ piece ∈ pieces, Trimmed blank piece ∧ piece ≠ []) :
    Trimmed blank (separator.intercalate pieces) ∧
      (pieces ≠ [] → separator.intercalate pieces ≠ []) := by
  induction pieces with
  | nil => exact ⟨trimmed_nil, fun some => absurd rfl some⟩
  | cons piece rest inductionHypothesis =>
    obtain ⟨⟨trimmed, some⟩, others⟩ := List.forall_mem_cons.mp each
    cases rest with
    | nil =>
      rw [List.intercalate_singleton]
      exact ⟨trimmed, fun _ => some⟩
    | cons next rest =>
      obtain ⟨after, more⟩ := inductionHypothesis others
      rw [List.intercalate_cons_cons]
      refine ⟨?_, fun _ empty => ?_⟩
      · exact trimmed.append after some (more (List.cons_ne_nil _ _)) separator
      · rw [List.append_assoc] at empty
        exact some (List.append_eq_nil_iff.mp empty).1

end Trimming
