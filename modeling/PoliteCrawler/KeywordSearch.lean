/-
This file says for which keywords the keyword test finds exactly the pages that
contain one.

The test cuts the text at every character that is not alphanumeric, and compares
the pieces with the whole keyword. A keyword that carries such a character itself
is never one of the pieces, although a text can contain it as a word.
-/

import PoliteCrawler.HtmlParser
import PoliteCrawler.SeparatedWords

namespace PoliteCrawler

open SeparatedWords

variable {Url : Type} (crates : Crates Url)

/-- A character that ends a word. -/
def endsWord (char : Char) : Bool := !crates.unicode.isAlphanumeric char

/-- The keyword occurs in the text, ignoring case, neither preceded nor followed by an alphanumeric
character. -/
def OccursAsWord (text keyword : String) : Prop :=
  ∃ word : String, crates.unicode.toLowercase word = crates.unicode.toLowercase keyword ∧
    StandsIn (endsWord crates) word.toList text.toList

/-- For every text the test says whether a keyword occurs in it. -/
def FindsKeywords (keywords : List String) : Prop :=
  ∀ text, isKeywordsInHtml crates (some text) keywords = true ↔
    ∃ keyword ∈ keywords, OccursAsWord crates text keyword

/-- A run of alphanumeric characters of the word, with none beside it, is a keyword, ignoring
case. -/
def HoldsKeyword (keywords : List String) (word : String) : Prop :=
  ∃ piece ∈ splitPieces (endsWord crates) word, ∃ keyword ∈ keywords,
    crates.unicode.toLowercase piece = crates.unicode.toLowercase keyword

variable {crates}

theorem isKeywordsInHtml_iff {text : String} {keywords : List String} :
    isKeywordsInHtml crates (some text) keywords = true ↔ HoldsKeyword crates keywords text := by
  simp only [isKeywordsInHtml, List.any_eq_true, decide_eq_true_iff, tokenize, List.mem_map]
  constructor
  · rintro ⟨keyword, member, piece, part, same⟩
    exact ⟨piece, part, keyword, member, same⟩
  · rintro ⟨piece, part, keyword, member, same⟩
    exact ⟨keyword, member, piece, part, same⟩

/-- The pieces of a text are the runs of alphanumeric characters that stand in it. -/
theorem mem_splitPieces_iff {piece text : String} :
    piece ∈ splitPieces (endsWord crates) text ↔ piece ≠ "" ∧
      (∀ char ∈ piece.toList, endsWord crates char = false) ∧
      StandsIn (endsWord crates) piece.toList text.toList := by
  simp only [splitPieces, List.mem_map, List.mem_filter, mem_splitOnP_iff]
  constructor
  · rintro ⟨letters, ⟨⟨plain, stands⟩, nonempty⟩, rfl⟩
    rw [String.toList_ofList]
    refine ⟨fun empty => ?_, plain, stands⟩
    have none : letters = [] := by
      have lists := congrArg String.toList empty
      rwa [String.toList_ofList] at lists
    rw [none] at nonempty
    cases nonempty
  · rintro ⟨nonempty, plain, stands⟩
    refine ⟨piece.toList, ⟨⟨plain, stands⟩, ?_⟩, String.ofList_toList⟩
    cases letters : piece.toList with
    | nil => exact absurd (String.toList_eq_nil_iff.mp letters) nonempty
    | cons char rest => rfl

/-- What stands in a word that stands in the text stands in the text. -/
theorem HoldsKeyword.of_standsIn {keywords : List String} {word text : String}
    (holds : HoldsKeyword crates keywords word)
    (stands : StandsIn (endsWord crates) word.toList text.toList) :
    HoldsKeyword crates keywords text := by
  obtain ⟨piece, part, keyword, member, same⟩ := holds
  obtain ⟨nonempty, plain, inWord⟩ := mem_splitPieces_iff.mp part
  have inText := (mem_splitOnP_iff.mpr ⟨plain, inWord⟩ |> stands.splitOnP_subset)
  exact ⟨piece, mem_splitPieces_iff.mpr ⟨nonempty, mem_splitOnP_iff.mp inText⟩, keyword, member,
    same⟩

/-- The test finds exactly the texts with a keyword if and only if every spelling of a keyword holds
a keyword among its alphanumeric runs. A keyword of letters and digits is such a run itself. -/
theorem findsKeywords_iff {keywords : List String} : FindsKeywords crates keywords ↔
    ∀ keyword ∈ keywords, ∀ word,
      crates.unicode.toLowercase word = crates.unicode.toLowercase keyword →
        HoldsKeyword crates keywords word := by
  constructor
  · intro finds keyword member word same
    exact isKeywordsInHtml_iff.mp
      ((finds word).mpr ⟨keyword, member, word, same, standsIn_self word.toList⟩)
  · intro holds text
    rw [isKeywordsInHtml_iff]
    constructor
    · rintro ⟨piece, part, keyword, member, same⟩
      exact ⟨keyword, member, piece, same, (mem_splitPieces_iff.mp part).2.2⟩
    · rintro ⟨keyword, member, word, same, stands⟩
      exact (holds keyword member word same).of_standsIn stands

/-! ### The sample web -/

/-- The text contains the keyword as a word, and the test does not find it. -/
theorem hyphenated_keyword_missed :
    isKeywordsInHtml sampleCrates (some "an e-mail from us") ["e-mail"] = false ∧
      ∃ keyword ∈ ["e-mail"], OccursAsWord sampleCrates "an e-mail from us" keyword := by
  have blank : ∀ letter ∈ some ' ', endsWord sampleCrates letter = true := by
    intro letter same
    rw [← Option.mem_some_iff.mp same]
    decide
  have opens : "an ".toList.getLast? = some ' ' := by decide +kernel
  have closes : " from us".toList.head? = some ' ' := by decide +kernel
  exact ⟨by decide +kernel, "e-mail", List.mem_singleton_self _, "e-mail", rfl, "an ".toList,
    " from us".toList, by decide +kernel, opens ▸ blank, closes ▸ blank⟩

end PoliteCrawler
