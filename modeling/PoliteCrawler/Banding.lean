/-
This file builds the theory of banded lookup, the locality-sensitive index for
the Hamming distance. A word is cut into bands; two words become candidates of
each other when they agree on a whole band. When every position is read by at
most `overlap` bands, a differing position spoils at most `overlap` bands, so
words at distance `d` share a band as soon as `overlap * d` is less than the
number of bands.

The index files every stored word in one bucket per band. Its coherence (a word
lies only in the buckets of its own bands, and in all of them or in none) is a
field. Looking for a near word in the buckets of the query's bands then agrees
with looking for it among all stored words.
-/

import Mathlib.InformationTheory.Hamming
import Mathlib.Data.Finset.Union
import Mathlib.Algebra.Order.BigOperators.Group.Finset

namespace Banding

/-! ### The pigeonhole argument -/

section Pigeonhole

variable {Position Band Symbol : Type*} [Fintype Position] [DecidableEq Position] [Fintype Band]
  [DecidableEq Band] [DecidableEq Symbol]

/-- When few enough positions differ, some band reads none of them. -/
theorem exists_band_agrees (reads : Band → Finset Position) (overlap : Nat)
    (bounded : ∀ position, (Finset.univ.filter fun band => position ∈ reads band).card ≤ overlap)
    (first second : Position → Symbol)
    (near : hammingDist first second * overlap < Fintype.card Band) :
    ∃ band, ∀ position ∈ reads band, first position = second position := by
  set spoiled := (Finset.univ.filter fun position => first position ≠ second position).biUnion
    (fun position => Finset.univ.filter fun band => position ∈ reads band) with spoiledDef
  have few : spoiled.card < Fintype.card Band :=
    lt_of_le_of_lt (Finset.card_biUnion_le_card_mul _ _ overlap fun position _ => bounded position)
      near
  obtain ⟨band, clean⟩ : ∃ band, band ∉ spoiled := by
    by_contra all
    have full : spoiled = Finset.univ :=
      Finset.eq_univ_iff_forall.mpr fun band => not_not.mp fun out => all ⟨band, out⟩
    rw [full, Finset.card_univ] at few
    exact lt_irrefl _ few
  refine ⟨band, fun position member => ?_⟩
  by_contra different
  exact clean (Finset.mem_biUnion.mpr ⟨position, by simpa using different, by simpa using member⟩)

end Pigeonhole

/-! ### The banded index -/

section Index

variable {Word Band Key : Type*}

/-- Every word is filed only under its own key, and in every band as soon as it is in one. -/
structure Coherent (keyOf : Word → Band → Key) (buckets : Band → Key → List Word) : Prop where
  filed : ∀ band key word, word ∈ buckets band key → keyOf word band = key
  complete : ∀ first second word, word ∈ buckets first (keyOf word first) →
    word ∈ buckets second (keyOf word second)

/-- Buckets of words, one family of buckets for each band. -/
structure Index (Word Band Key : Type*) (keyOf : Word → Band → Key) where
  buckets : Band → Key → List Word
  coherent : Coherent keyOf buckets

namespace Index

variable {keyOf : Word → Band → Key}

/-- The index without words. -/
def empty : Index Word Band Key keyOf where
  buckets _ _ := []
  coherent := ⟨fun _ _ _ member => absurd member List.not_mem_nil,
    fun _ _ _ member => absurd member List.not_mem_nil⟩

/-- The words of an index. -/
def words (index : Index Word Band Key keyOf) : Set Word :=
  {word | ∀ band, word ∈ index.buckets band (keyOf word band)}

/-- What lies in a bucket is a word of the index, filed under its own key. -/
theorem mem_bucket_iff (index : Index Word Band Key keyOf) {band : Band} {key : Key}
    {word : Word} : word ∈ index.buckets band key ↔ keyOf word band = key ∧ word ∈ index.words := by
  constructor
  · intro member
    have keyed := index.coherent.filed band key word member
    subst keyed
    exact ⟨rfl, fun other => index.coherent.complete band other word member⟩
  · rintro ⟨rfl, member⟩
    exact member band

theorem words_empty [Nonempty Band] : (empty : Index Word Band Key keyOf).words = ∅ := by
  refine Set.eq_empty_iff_forall_notMem.mpr fun word member => ?_
  exact List.not_mem_nil (member (Classical.arbitrary Band))

/-- Looking for a near word in the buckets of the query agrees with a scan of all words, as
long as near words share a band. -/
theorem exists_candidate_iff (index : Index Word Band Key keyOf) (near : Word → Word → Prop)
    (query : Word)
    (share : ∀ word, near word query → ∃ band, keyOf word band = keyOf query band) :
    (∃ band, ∃ word ∈ index.buckets band (keyOf query band), near word query) ↔
      ∃ word ∈ index.words, near word query := by
  constructor
  · rintro ⟨band, word, member, close⟩
    exact ⟨word, (index.mem_bucket_iff.mp member).2, close⟩
  · rintro ⟨word, member, close⟩
    obtain ⟨band, same⟩ := share word close
    exact ⟨band, word, index.mem_bucket_iff.mpr ⟨same, member⟩, close⟩

/-- A bucket that another word may have been filed in has its old words, and the new one if so. -/
theorem mem_filed_iff {filed : Prop} [Decidable filed] {bucket : List Word} {word other : Word} :
    (other ∈ if filed then bucket ++ [word] else bucket) ↔
      other ∈ bucket ∨ filed ∧ other = word := by
  split
  · rename_i holds
    rw [List.mem_append, List.mem_singleton, and_iff_right holds]
  · rename_i fails
    exact (or_iff_left fun new => fails new.1).symm

variable [DecidableEq Key]

/-- Files a word: pushes it on its bucket in every band. -/
def push (index : Index Word Band Key keyOf) (word : Word) : Index Word Band Key keyOf where
  buckets band key :=
    if key = keyOf word band then index.buckets band key ++ [word] else index.buckets band key
  coherent := by
    constructor
    · intro band key other member
      rcases mem_filed_iff.mp member with old | ⟨own, rfl⟩
      · exact index.coherent.filed band key other old
      · exact own.symm
    · intro first second other member
      refine mem_filed_iff.mpr ?_
      rcases mem_filed_iff.mp member with old | ⟨_, rfl⟩
      · exact Or.inl (index.coherent.complete first second other old)
      · exact Or.inr ⟨rfl, rfl⟩

/-- Filing a word adds that word and no other. -/
theorem words_push [Nonempty Band] (index : Index Word Band Key keyOf) (word : Word) :
    (index.push word).words = insert word index.words := by
  ext other
  constructor
  · intro member
    by_cases same : other = word
    · exact Or.inl same
    · refine Or.inr fun band => ?_
      have filed : other ∈ (index.push word).buckets band (keyOf other band) := member band
      exact (mem_filed_iff.mp filed).resolve_right fun new => same new.2
  · rintro (rfl | member) band
    · exact mem_filed_iff.mpr (Or.inr ⟨rfl, rfl⟩)
    · exact mem_filed_iff.mpr (Or.inl (member band))

/-- Filing a list of words adds the words of the list. -/
theorem words_foldl_push [Nonempty Band] (list : List Word) (index : Index Word Band Key keyOf) :
    (list.foldl push index).words = {word | word ∈ list} ∪ index.words := by
  induction list generalizing index with
  | nil => simp
  | cons word rest inductionHypothesis =>
    rw [List.foldl_cons, inductionHypothesis, words_push]
    ext other
    simp only [Set.mem_union, Set.mem_insert_iff, Set.mem_ofPred_eq, List.mem_cons]
    tauto

end Index

end Index

end Banding
