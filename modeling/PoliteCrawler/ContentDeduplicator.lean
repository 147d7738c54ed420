/-
This file models the near-duplicate index of the storage service and proves that
its banded lookup agrees with a full scan.

A 64-bit content hash is cut into eight bands at a stride of eight bits. A band
keeps sixteen bits, so neighbouring bands overlap and the last one holds only
the top eight bits. A bit therefore lies in at most two bands, and three
differing bits spoil at most six of the eight: hashes within distance three
always share a band.
-/

import PoliteCrawler.Banding
import PoliteCrawler.Common

namespace PoliteCrawler

open Banding

/-! ### The code -/

def bandNum : Nat := 8

def bandBits : Nat := 8

/-- `(hash >> (band_id * BAND_BITS)) as u16` -/
def extractBand (hash : BitVec 64) (bandId : Fin bandNum) : BitVec 16 :=
  (hash >>> (bandId.val * bandBits)).setWidth 16

/-- `simhash::hamming_distance`: the number of differing bits. -/
def hammingDistance (first second : BitVec 64) : Nat :=
  hammingDist (fun position : Fin 64 => first.getLsb position)
    (fun position => second.getLsb position)

/-- The windows of `size` consecutive bytes, as `slice::windows` yields them. -/
def windows (size : Nat) : List UInt8 → List (List UInt8)
  | [] => []
  | byte :: rest =>
    if size ≤ rest.length + 1 then (byte :: rest).take size :: windows size rest else []

section Hash

variable {Url : Type} (crates : Crates Url)

/-- The letters, digits and white space of a text, lowercased. -/
def cleanedText (text : String) : String :=
  crates.unicode.toLowercase (String.ofList (text.toList.filter fun c =>
    crates.unicode.isWhitespace c || crates.unicode.isAlphanumeric c))

/-- The content hash of a text. -/
def calculateHash (text : String) : BitVec 64 :=
  let bytes := (cleanedText crates text).toByteArray.data.toList
  if bytes.length < 4 then crates.simhash.simhash text
  else
    -- a window that cuts a character is not valid UTF-8 and is dropped
    let ngrams := (windows 4 bytes).filterMap fun window => String.fromUTF8? ⟨window.toArray⟩
    crates.simhash.simhashStream ngrams

end Hash

/-- The index: eight maps from a band value to the hashes filed under it. -/
structure ContentDeduplicator where
  bands : Index (BitVec 64) (Fin bandNum) (BitVec 16) extractBand
  maxDist : Nat

namespace ContentDeduplicator

def init (hashes : List (BitVec 64)) (dist : Nat) : ContentDeduplicator where
  bands := hashes.foldl Index.push Index.empty
  maxDist := dist

variable {Url : Type} (crates : Crates Url)

def isDuplicate (dedup : ContentDeduplicator) (text : String) : Bool :=
  let textHash := calculateHash crates text
  (List.finRange bandNum).any fun bandId =>
    let candidates := dedup.bands.buckets bandId (extractBand textHash bandId)
    candidates.any fun hash => hammingDistance hash textHash ≤ dedup.maxDist

/-- Files the hash of a text and returns it. -/
def insert (dedup : ContentDeduplicator) (text : String) : BitVec 64 × ContentDeduplicator :=
  let newHash := calculateHash crates text
  (newHash, { dedup with bands := dedup.bands.push newHash })

/-! ### The hashes of an index -/

/-- The hashes an index holds. -/
def hashes (dedup : ContentDeduplicator) : Set (BitVec 64) := dedup.bands.words

theorem hashes_init (hashes : List (BitVec 64)) (dist : Nat) :
    (init hashes dist).hashes = {hash | hash ∈ hashes} := by
  show (hashes.foldl Index.push Index.empty).words = _
  have : Nonempty (Fin bandNum) := ⟨0, by decide⟩
  rw [Index.words_foldl_push, Index.words_empty, Set.union_empty]

theorem hashes_insert (dedup : ContentDeduplicator) (text : String) :
    (dedup.insert crates text).2.hashes = Insert.insert (calculateHash crates text) dedup.hashes := by
  have : Nonempty (Fin bandNum) := ⟨0, by decide⟩
  exact Index.words_push dedup.bands (calculateHash crates text)

@[simp] theorem maxDist_insert (dedup : ContentDeduplicator) (text : String) :
    (dedup.insert crates text).2.maxDist = dedup.maxDist := rfl

@[simp] theorem maxDist_init (hashes : List (BitVec 64)) (dist : Nat) :
    (init hashes dist).maxDist = dist := rfl

/-! ### Hashes within distance three share a band -/

/-- The bit positions a band reads. -/
def bandReads (bandId : Fin bandNum) : Finset (Fin 64) :=
  Finset.univ.filter fun position =>
    bandId.val * bandBits ≤ position.val ∧ position.val < bandId.val * bandBits + 16

/-- A bit lies in at most two bands: that of its byte and the one before. -/
theorem bandReads_overlap (position : Fin 64) :
    (Finset.univ.filter fun bandId => position ∈ bandReads bandId).card ≤ 2 := by
  revert position
  decide

/-- Hashes that agree on the bits a band reads have the same band value. -/
theorem extractBand_congr {first second : BitVec 64} {bandId : Fin bandNum}
    (agree : ∀ position ∈ bandReads bandId, first.getLsb position = second.getLsb position) :
    extractBand first bandId = extractBand second bandId := by
  refine BitVec.eq_of_getLsbD_eq fun offset small => ?_
  simp only [extractBand, BitVec.getLsbD_setWidth, BitVec.getLsbD_ushiftRight]
  by_cases inside : bandId.val * bandBits + offset < 64
  · have same := agree ⟨bandId.val * bandBits + offset, inside⟩
      (by simp only [bandReads, Finset.mem_filter, Finset.mem_univ, true_and]; omega)
    rw [BitVec.getLsb_eq_getElem, BitVec.getLsb_eq_getElem] at same
    rw [BitVec.getLsbD_eq_getElem inside, BitVec.getLsbD_eq_getElem inside]
    exact congrArg (decide (offset < 16) && ·) same
  · rw [BitVec.getLsbD_of_ge _ _ (by omega), BitVec.getLsbD_of_ge _ _ (by omega)]

/-- Three differing bits spoil at most six of the eight bands. -/
theorem exists_extractBand_eq {first second : BitVec 64}
    (near : hammingDistance first second ≤ 3) :
    ∃ bandId, extractBand first bandId = extractBand second bandId := by
  obtain ⟨bandId, agree⟩ := exists_band_agrees bandReads 2 bandReads_overlap
    (fun position : Fin 64 => first.getLsb position) (fun position => second.getLsb position)
    (by
      have eight : Fintype.card (Fin bandNum) = 8 := Fintype.card_fin _
      have few : hammingDistance first second * 2 ≤ 6 := Nat.mul_le_mul_right 2 near
      rw [eight]
      exact lt_of_le_of_lt few (by decide))
  exact ⟨bandId, extractBand_congr agree⟩

-- four bits spoil all eight bands when no two of their bytes are neighbours
example : hammingDistance 0#64 0x0100010001000100#64 = 4 ∧
    ∀ bandId, extractBand 0#64 bandId ≠ extractBand 0x0100010001000100#64 bandId := by decide

/-! ### The lookup agrees with a full scan -/

/-- For distances up to three the lookup finds exactly the near hashes of the index. -/
theorem isDuplicate_iff (dedup : ContentDeduplicator) (small : dedup.maxDist ≤ 3) (text : String) :
    dedup.isDuplicate crates text = true ↔
      ∃ hash ∈ dedup.hashes, hammingDistance hash (calculateHash crates text) ≤ dedup.maxDist := by
  rw [hashes, ← Index.exists_candidate_iff dedup.bands
    (fun hash query => hammingDistance hash query ≤ dedup.maxDist) (calculateHash crates text)
    (fun hash near => exists_extractBand_eq (near.trans small))]
  simp only [isDuplicate, List.any_eq_true, List.mem_finRange, true_and, decide_eq_true_eq]

/-- Two indices with the same hashes and the same distance answer every query alike. -/
theorem isDuplicate_congr {first second : ContentDeduplicator} (small : first.maxDist ≤ 3)
    (sameDist : first.maxDist = second.maxDist) (sameHashes : first.hashes = second.hashes)
    (text : String) : first.isDuplicate crates text = second.isDuplicate crates text := by
  rw [Bool.eq_iff_iff, isDuplicate_iff crates first small,
    isDuplicate_iff crates second (sameDist ▸ small), sameHashes, sameDist]

/-- Inserts the texts of a list in order; the hashes the calls returned, and the index after. -/
def insertAll (dedup : ContentDeduplicator) : List String → List (BitVec 64) × ContentDeduplicator
  | [] => ([], dedup)
  | text :: rest =>
    let inserted := dedup.insert crates text
    let remaining := inserted.2.insertAll rest
    (inserted.1 :: remaining.1, remaining.2)

theorem insertAll_spec (texts : List String) (dedup : ContentDeduplicator) :
    (dedup.insertAll crates texts).2.hashes =
        {hash | hash ∈ (dedup.insertAll crates texts).1} ∪ dedup.hashes ∧
      (dedup.insertAll crates texts).2.maxDist = dedup.maxDist := by
  induction texts generalizing dedup with
  | nil => exact ⟨by simp [insertAll], rfl⟩
  | cons text rest inductionHypothesis =>
    obtain ⟨words, dist⟩ := inductionHypothesis (dedup.insert crates text).2
    refine ⟨?_, dist⟩
    show ((dedup.insert crates text).2.insertAll crates rest).2.hashes = _
    rw [words, hashes_insert]
    ext hash
    simp only [insertAll, Set.mem_union, Set.mem_insert_iff, Set.mem_ofPred_eq, List.mem_cons]
    exact ⟨fun member => by tauto, fun member => by tauto⟩

/-- The lookup agrees with a full scan over any history of the index: a text is a duplicate if
and only if a hash given to `init` or returned by an earlier `insert` is near its own hash, and
once it is, it stays one. -/
theorem isDuplicate_iff_scan (initial : List (BitVec 64)) (dist : Nat) (small : dist ≤ 3)
    (texts : List String) (query : String) :
    let inserted := (init initial dist).insertAll crates texts
    (inserted.2.isDuplicate crates query = true ↔
        ∃ hash ∈ initial ++ inserted.1,
          hammingDistance hash (calculateHash crates query) ≤ dist) ∧
      (inserted.2.isDuplicate crates query = true → ∀ further,
        (inserted.2.insertAll crates further).2.isDuplicate crates query = true) := by
  intro inserted
  obtain ⟨words, distInserted⟩ := insertAll_spec crates texts (init initial dist)
  have smallInserted : inserted.2.maxDist ≤ 3 := distInserted ▸ small
  constructor
  · rw [isDuplicate_iff crates inserted.2 smallInserted, words, distInserted, hashes_init]
    simp only [Set.mem_union, Set.mem_ofPred_eq, List.mem_append, maxDist_init, inserted, or_comm]
  · intro duplicate further
    obtain ⟨hash, member, near⟩ := (isDuplicate_iff crates _ smallInserted query).mp duplicate
    obtain ⟨wordsFurther, distFurther⟩ := insertAll_spec crates further inserted.2
    refine (isDuplicate_iff crates _ (distFurther ▸ smallInserted) query).mpr ⟨hash, ?_, ?_⟩
    · rw [wordsFurther]
      exact Or.inr member
    · rw [distFurther]
      exact near

/-- The text without features has the hash zero, which three bits keep from the stored `7`. -/
theorem isDuplicate_iff_scan_sample :
    ((init [7#64] 3).insertAll sampleCrates ["a"]).2.isDuplicate sampleCrates "" = true ∧
      ∀ further, (((init [7#64] 3).insertAll sampleCrates ["a"]).2.insertAll sampleCrates
        further).2.isDuplicate sampleCrates "" = true := by
  obtain ⟨scan, stays⟩ := isDuplicate_iff_scan sampleCrates [7#64] 3 (le_refl 3) ["a"] ""
  have duplicate := scan.mpr ⟨7#64, by decide, by decide⟩
  exact ⟨duplicate, stays duplicate⟩

/-- A hash has distance zero from itself. -/
theorem hammingDistance_self (hash : BitVec 64) : hammingDistance hash hash = 0 :=
  hammingDist_self _

theorem hammingDistance_comm (first second : BitVec 64) :
    hammingDistance first second = hammingDistance second first :=
  hammingDist_comm _ _

/-- A text that is in the index is found again. -/
theorem isDuplicate_insert (dedup : ContentDeduplicator) (small : dedup.maxDist ≤ 3)
    (text : String) : (dedup.insert crates text).2.isDuplicate crates text = true := by
  refine (isDuplicate_iff crates (dedup.insert crates text).2 small text).mpr
    ⟨calculateHash crates text, ?_, ?_⟩
  · rw [hashes_insert]
    exact Set.mem_insert _ _
  · rw [hammingDistance_self]
    exact Nat.zero_le _

end ContentDeduplicator

end PoliteCrawler
