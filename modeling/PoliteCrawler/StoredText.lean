/-
This file proves what the texts of the pages table look like.

`ParsedPage::parse` cuts what it keeps at an angle bracket and trims it. A title
that is kept is nonempty, is trimmed and has no `<`; the text of a page is
trimmed and has no angle bracket. The description is kept as it stands, and
nothing is proved about it.

The parser is the only source of new rows, over any interleaving with failing
calls and restarts, so every row that was not there before has such texts.
-/

import PoliteCrawler.Provenance
import PoliteCrawler.Trimming

namespace PoliteCrawler

open Trimming

variable {Url : Type}

/-! ### What is kept of a page -/

/-- Neither end of the text is white space. -/
def IsTrimmed (unicode : Unicode) (text : String) : Prop :=
  Trimmed unicode.isWhitespace text.toList

/-- A title that can be stored. -/
structure CleanTitle (unicode : Unicode) (title : String) : Prop where
  nonempty : title ≠ ""
  trimmed : IsTrimmed unicode title
  noTag : '<' ∉ title.toList

/-- A text that can be stored. -/
structure CleanText (unicode : Unicode) (text : String) : Prop where
  trimmed : IsTrimmed unicode text
  noTag : '<' ∉ text.toList ∧ '>' ∉ text.toList

section Texts

variable (unicode : Unicode)

theorem trim_toList (text : String) :
    (trim unicode text).toList = strip unicode.isWhitespace text.toList := by
  rw [trim, String.toList_ofList]
  rfl

theorem isTrimmed_trim (text : String) : IsTrimmed unicode (trim unicode text) := by
  rw [IsTrimmed, trim_toList]
  exact trimmed_strip _

theorem mem_of_mem_trim {text : String} {char : Char} (member : char ∈ (trim unicode text).toList) :
    char ∈ text.toList := by
  rw [trim_toList] at member
  exact strip_subset _ member

/-- No angle bracket comes before the first one. -/
theorem cutAtAngle_noTag {text : String} {char : Char}
    (member : char ∈ (cutAtAngle text).toList) : char ≠ '<' ∧ char ≠ '>' := by
  rw [cutAtAngle, String.toList_ofList] at member
  exact of_decide_eq_true (List.all_eq_true.mp List.all_takeWhile char member)

end Texts

section Parsed

variable (crates : Crates Url)

/-- The pieces of a title, joined by a space, are trimmed. -/
theorem isTrimmed_joined (texts : List String) :
    IsTrimmed crates.unicode (" ".intercalate
      ((texts.map (trim crates.unicode)).filter fun text => !text.isEmpty)) := by
  rw [IsTrimmed, String.toList_intercalate]
  refine (trimmed_intercalate _ fun piece member => ?_).1
  obtain ⟨text, kept, rfl⟩ := List.mem_map.mp member
  obtain ⟨trimmed, some⟩ := List.mem_filter.mp kept
  obtain ⟨source, _, rfl⟩ := List.mem_map.mp trimmed
  refine ⟨isTrimmed_trim crates.unicode source, fun empty => ?_⟩
  have blank : trim crates.unicode source = "" := String.toList_eq_nil_iff.mp empty
  rw [blank] at some
  cases some

/-- A text up to its first `<`, trimmed when there is one. -/
theorem cutTitle_noTag (text : String) :
    '<' ∉ (if '<' ∈ text.toList then
      trim crates.unicode (String.ofList (text.toList.takeWhile (· ≠ '<'))) else text).toList := by
  intro member
  split at member
  · have before := mem_of_mem_trim crates.unicode member
    rw [String.toList_ofList] at before
    have other := List.all_eq_true.mp List.all_takeWhile _ before
    exact of_decide_eq_true other rfl
  · rename_i absent
    exact absent member

theorem titleOf_clean {doc : Html} {title : String} (kept : titleOf crates doc = some title) :
    CleanTitle crates.unicode title := by
  obtain ⟨found, nonempty⟩ := Option.filter_eq_some_iff.mp kept
  obtain ⟨element, _, rfl⟩ := Option.map_eq_some_iff.mp found
  have some : ∀ {text : String}, (!text.isEmpty) = true → text ≠ "" := by
    rintro _ given rfl
    cases given
  refine ⟨some nonempty, ?_, cutTitle_noTag crates _⟩
  dsimp only
  split
  · exact isTrimmed_trim crates.unicode _
  · exact isTrimmed_joined crates element.texts

theorem cleanTextOf_clean (doc : Html) : CleanText crates.unicode (cleanTextOf crates doc) := by
  have noTag : ∀ char ∈ (cleanTextOf crates doc).toList, char ≠ '<' ∧ char ≠ '>' := by
    intro char member
    have joined := mem_of_mem_trim crates.unicode member
    rw [String.toList_join] at joined
    obtain ⟨piece, listed, among⟩ := List.mem_flatMap.mp joined
    obtain ⟨element, _, pieces⟩ := List.mem_flatMap.mp listed
    obtain ⟨text, _, rfl⟩ := List.mem_map.mp pieces
    rw [String.toList_append, List.mem_append] at among
    rcases among with cut | space
    · exact cutAtAngle_noTag cut
    · obtain rfl : char = ' ' := List.mem_singleton.mp space
      decide
  refine ⟨isTrimmed_trim crates.unicode _, fun member => ?_, fun member => ?_⟩
  · exact (noTag '<' member).1 rfl
  · exact (noTag '>' member).2 rfl

end Parsed

/-! ### What is stored -/

section Stored

variable [DecidableEq Url] {crates : Crates Url} {world : World Url} {n : Nat}
  {limit : Option (BitVec 64)} {deployment : Deployment Url n}

/-- The parser saves only clean texts. -/
theorem ReadOff.clean {page : ParsedPage Url} (read : ReadOff crates world page) :
    (∀ title, page.title = some title → CleanTitle crates.unicode title) ∧
      ∃ text, page.cleanText = some text ∧ CleanText crates.unicode text := by
  obtain ⟨_, _, keywordsFile, data, _, _, _, _, parsed⟩ := read
  unfold ParsedPage.parse at parsed
  dsimp only at parsed
  split at parsed
  · cases parsed
  · cases parsed
    exact ⟨fun title kept => titleOf_clean crates kept, _, rfl, cleanTextOf_clean crates _⟩

end Stored

end PoliteCrawler
