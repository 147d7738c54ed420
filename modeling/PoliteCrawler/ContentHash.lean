/-
This file says what the content hash of a text depends on.

A text of four bytes or more is cut into windows of four bytes, and the windows that
cut a character are dropped. So a character is seen by the hash when it stands in a
run of characters with four bytes, which in a text of three-byte characters none
does: all such texts have the same hash. A shorter text is hashed as it is, and so
its punctuation and its letter case count, which are cleaned away in longer ones.
-/

import PoliteCrawler.ContentDeduplicator
import PoliteCrawler.WeightedRuns

namespace PoliteCrawler

open WeightedRuns

variable {Url : Type} (crates : Crates Url)

/-! ### The features of a text -/

/-- The windows of a cleaned text that are passed to the hash. -/
def featuresOf (text : String) : List String :=
  (windows 4 (cleanedText crates text).toByteArray.data.toList).filterMap fun window =>
    String.fromUTF8? ⟨window.toArray⟩

theorem length_toByteArray (text : String) :
    text.toByteArray.data.toList.length = text.utf8ByteSize := rfl

variable {crates}

theorem calculateHash_of_short {text : String}
    (short : ¬ 4 ≤ (cleanedText crates text).utf8ByteSize) :
    calculateHash crates text = crates.simhash.simhash text := by
  rw [calculateHash]
  exact if_pos (Nat.lt_of_not_le short)

theorem calculateHash_of_long {text : String}
    (long : 4 ≤ (cleanedText crates text).utf8ByteSize) :
    calculateHash crates text = crates.simhash.simhashStream (featuresOf crates text) := by
  rw [calculateHash]
  exact if_neg (Nat.not_lt_of_le long)

/-! ### Windows that cut no character -/

theorem getElem?_windows {size : Nat} (filled : 0 < size) (bytes : List UInt8) (start : Nat) :
    (windows size bytes)[start]? =
      if start + size ≤ bytes.length then some ((bytes.drop start).take size) else none := by
  induction bytes generalizing start with
  | nil => rw [if_neg (by simp only [List.length_nil]; omega)]; rfl
  | cons byte rest inductionHypothesis =>
    rw [windows]
    split
    · cases start with
      | zero => rw [if_pos (by simp only [List.length_cons]; omega)]; rfl
      | succ start =>
        rw [List.getElem?_cons_succ, inductionHypothesis, List.drop_succ_cons, List.length_cons]
        exact if_congr (by omega) rfl rfl
    · rw [if_neg (by simp only [List.length_cons]; omega), List.getElem?_nil]

theorem utf8ByteSize_ofList (chars : List Char) :
    (String.ofList chars).utf8ByteSize = total Char.utf8Size chars := by
  induction chars with
  | nil => rfl
  | cons char rest inductionHypothesis =>
    have first : (String.ofList [char]).utf8ByteSize = char.utf8Size := by
      rw [← String.singleton_eq_ofList, String.utf8ByteSize_singleton]
    rw [← List.singleton_append, String.ofList_append, String.utf8ByteSize_append, first,
      inductionHypothesis, List.singleton_append, total_cons]

theorem utf8ByteSize_eq_total (text : String) :
    text.utf8ByteSize = total Char.utf8Size text.toList := by
  rw [← utf8ByteSize_ofList, String.ofList_toList]

/-- A position is valid in a text when it cuts no character. -/
theorem isValid_iff_cutsAt (text : String) (offset : Nat) :
    String.Pos.Raw.IsValid text ⟨offset⟩ ↔ CutsAt Char.utf8Size offset text.toList := by
  rw [String.Pos.Raw.isValid_iff_exists_append]
  constructor
  · rintro ⟨before, after, rfl, same⟩
    refine ⟨before.toList, after.toList, String.toList_append, ?_⟩
    rw [← utf8ByteSize_eq_total]
    exact (congrArg String.Pos.Raw.byteIdx same).symm
  · rintro ⟨before, after, split, same⟩
    refine ⟨String.ofList before, String.ofList after, ?_, ?_⟩
    · rw [← String.ofList_append, ← split, String.ofList_toList]
    · rw [← same, ← utf8ByteSize_ofList]
      rfl

/-- A window of four bytes is valid when it cuts no character at its ends. -/
theorem isValidUTF8_window_iff {text : String} {start : Nat}
    (inside : start + 4 ≤ text.utf8ByteSize) :
    ByteArray.IsValidUTF8 ⟨((text.toByteArray.data.toList.drop start).take 4).toArray⟩ ↔
      CutsAt Char.utf8Size start text.toList ∧ CutsAt Char.utf8Size (start + 4) text.toList := by
  have window : ByteArray.mk ((text.toByteArray.data.toList.drop start).take 4).toArray =
      text.toByteArray.extract start (start + 4) := by
    refine ByteArray.ext (Array.toList_inj.mp ?_)
    rw [ByteArray.data_extract, Array.toList_extract, List.extract_eq_take_drop,
      Nat.add_sub_cancel_left]
  have ends := String.Pos.Raw.isValidUTF8_extract_iff (s := text) ⟨start⟩ ⟨start + 4⟩
    (Nat.le_add_right start 4) inside
  rw [window, ← isValid_iff_cutsAt, ← isValid_iff_cutsAt]
  refine ends.trans (or_iff_right fun same => ?_)
  have nowhere : start = start + 4 := congrArg String.Pos.Raw.byteIdx same
  omega

theorem isSome_fromUTF8?_iff (bytes : ByteArray) :
    (String.fromUTF8? bytes).isSome = true ↔ bytes.IsValidUTF8 := by
  rw [String.fromUTF8?]
  split
  · exact iff_of_true rfl ‹_›
  · exact iff_of_false Bool.false_ne_true ‹_›

/-- The windows that are passed on are those between two offsets that cut no character. -/
theorem exists_valid_window_iff {text : String} {start : Nat} :
    (∃ window, (windows 4 text.toByteArray.data.toList)[start]? = some window ∧
        (String.fromUTF8? ⟨window.toArray⟩).isSome = true) ↔
      CutsAt Char.utf8Size start text.toList ∧ CutsAt Char.utf8Size (start + 4) text.toList := by
  simp only [getElem?_windows (Nat.zero_lt_succ 3), isSome_fromUTF8?_iff, length_toByteArray]
  constructor
  · rintro ⟨window, found, valid⟩
    rw [Option.ite_none_right_eq_some] at found
    obtain ⟨inside, same⟩ := found
    rw [← Option.some.inj same] at valid
    exact (isValidUTF8_window_iff inside).mp valid
  · intro cuts
    have inside : start + 4 ≤ text.utf8ByteSize := by
      rw [utf8ByteSize_eq_total]
      exact cuts.2.le_total
    exact ⟨_, if_pos inside, (isValidUTF8_window_iff inside).mpr cuts⟩

/-! ### The whole text -/

/-- The character with the others before it lies in a window that is passed to the hash. -/
def InFeature (crates : Crates Url) (text : String) (before : List Char) (char : Char) : Prop :=
  ∃ start window, (windows 4 (cleanedText crates text).toByteArray.data.toList)[start]? =
      some window ∧ (String.fromUTF8? ⟨window.toArray⟩).isSome ∧
    start ≤ total Char.utf8Size before ∧ total Char.utf8Size before + char.utf8Size ≤ start + 4

/-- Every character of the cleaned text is seen by the hash. -/
structure SeesWholeText (crates : Crates Url) (text : String) : Prop where
  covered : ∀ before char after, (cleanedText crates text).toList = before ++ char :: after →
    InFeature crates text before char
  features : featuresOf crates text ≠ []

theorem inFeature_iff {text : String} {before after : List Char} {char : Char}
    (placed : (cleanedText crates text).toList = before ++ char :: after) :
    InFeature crates text before char ↔ InRun Char.utf8Size 4 before char after := by
  rw [inRun_iff Char.utf8Size_pos, ← placed]
  simp only [InFeature, ← and_assoc, ← exists_valid_window_iff, exists_and_right]

/-- The hash sees every character if and only if each stands in a run of characters of four
bytes. -/
theorem seesWholeText_iff {text : String} (long : 4 ≤ (cleanedText crates text).utf8ByteSize) :
    SeesWholeText crates text ↔ ∀ before char after,
      (cleanedText crates text).toList = before ++ char :: after →
        InRun Char.utf8Size 4 before char after := by
  constructor
  · intro sees before char after placed
    exact (inFeature_iff placed).mp (sees.covered before char after placed)
  · intro runs
    have covered : ∀ before char after, (cleanedText crates text).toList = before ++ char :: after →
        InFeature crates text before char := by
      intro before char after placed
      exact (inFeature_iff placed).mpr (runs before char after placed)
    refine ⟨covered, ?_⟩
    obtain ⟨char, rest, chars⟩ : ∃ char rest, (cleanedText crates text).toList = char :: rest := by
      refine List.exists_cons_of_ne_nil fun none => ?_
      rw [utf8ByteSize_eq_total, none, total_nil] at long
      exact absurd long (by decide)
    obtain ⟨start, window, found, valid, -⟩ := covered [] char rest chars
    obtain ⟨feature, decoded⟩ := Option.isSome_iff_exists.mp valid
    exact List.ne_nil_of_mem
      (List.mem_filterMap.mpr ⟨window, List.mem_of_getElem? found, decoded⟩)

theorem seesWholeText_iff_sample : SeesWholeText sampleCrates "Rust!" := by
  refine (seesWholeText_iff (by decide +kernel)).mpr fun before char after placed => ?_
  refine ⟨[], before, after, [], rfl, (List.append_nil _).symm, ?_⟩
  rw [← placed]
  decide +kernel

/-- A text of three-byte characters has no features: no window is a whole number of them. -/
theorem featuresOf_eq_nil {text : String}
    (each : ∀ char ∈ (cleanedText crates text).toList, char.utf8Size = 3) :
    featuresOf crates text = [] := by
  refine List.filterMap_eq_nil_iff.mpr fun window member => ?_
  obtain ⟨start, found⟩ := List.mem_iff_getElem?.mp member
  by_contra decoded
  obtain ⟨starts, ends⟩ :=
    exists_valid_window_iff.mp ⟨window, found, Option.isSome_iff_ne_none.mpr decoded⟩
  have multiples : ∀ char ∈ (cleanedText crates text).toList, 3 ∣ char.utf8Size :=
    fun char placed => Dvd.intro 1 (each char placed).symm
  have startMultiple := starts.dvd multiples
  have endMultiple := ends.dvd multiples
  omega

/-- The tables of the small web with the Chinese characters as letters. -/
def sampleChineseCrates : Crates SampleUrl where
  __ := sampleCrates
  unicode := {
    sampleCrates.unicode with
    isAlphanumeric := fun char =>
      char.isAlphanum || (0x4e00 ≤ char.toNat && char.toNat ≤ 0x9fff) }

/-- No character of a Chinese text is seen. -/
theorem chinese_text_unseen :
    (cleanedText sampleChineseCrates "中文网页").utf8ByteSize = 12 ∧
      featuresOf sampleChineseCrates "中文网页" = [] ∧
      ¬ SeesWholeText sampleChineseCrates "中文网页" := by
  have sizes : (cleanedText sampleChineseCrates "中文网页").toList.all
      (fun char => char.utf8Size = 3) = true := by decide +kernel
  have none : featuresOf sampleChineseCrates "中文网页" = [] :=
    featuresOf_eq_nil fun char placed => of_decide_eq_true (List.all_eq_true.mp sizes char placed)
  exact ⟨by decide +kernel, none, fun sees => sees.features none⟩

/-! ### Texts with the same hash -/

/-- A text is a duplicate of an inserted one with the same hash, whatever the distance is. -/
theorem isDuplicate_of_calculateHash_eq (dedup : ContentDeduplicator) {first second : String}
    (same : calculateHash crates first = calculateHash crates second) :
    (dedup.insert crates first).2.isDuplicate crates second = true := by
  have : Nonempty (Fin bandNum) := ⟨Fin.last 7⟩
  have filed : calculateHash crates second ∈ (dedup.insert crates first).2.bands.buckets
      (Fin.last 7) (extractBand (calculateHash crates second) (Fin.last 7)) := by
    refine (Banding.Index.mem_bucket_iff _).mpr ⟨rfl, ?_⟩
    show _ ∈ (dedup.bands.push (calculateHash crates first)).words
    rw [Banding.Index.words_push, same]
    exact Set.mem_insert _ _
  refine List.any_eq_true.mpr ⟨Fin.last 7, List.mem_finRange _, List.any_eq_true.mpr
    ⟨_, filed, decide_eq_true ?_⟩⟩
  rw [ContentDeduplicator.hammingDistance_self]
  exact Nat.zero_le _

/-- Of two long texts without features the second one is dropped. -/
theorem isDuplicate_of_featuresOf_eq_nil (dedup : ContentDeduplicator) {first second : String}
    (firstLong : 4 ≤ (cleanedText crates first).utf8ByteSize)
    (secondLong : 4 ≤ (cleanedText crates second).utf8ByteSize)
    (firstBlank : featuresOf crates first = []) (secondBlank : featuresOf crates second = []) :
    (dedup.insert crates first).2.isDuplicate crates second = true := by
  refine isDuplicate_of_calculateHash_eq dedup ?_
  rw [calculateHash_of_long firstLong, calculateHash_of_long secondLong, firstBlank, secondBlank]

/-- The two texts have the same hash, and after insert of either one the other is a duplicate. -/
structure HashesAlike (crates : Crates Url) (first second : String) : Prop where
  hash : calculateHash crates first = calculateHash crates second
  isDuplicate : ∀ dedup : ContentDeduplicator,
    (dedup.insert crates first).2.isDuplicate crates second = true ∧
      (dedup.insert crates second).2.isDuplicate crates first = true

theorem hashesAlike_of_eq {first second : String}
    (same : calculateHash crates first = calculateHash crates second) :
    HashesAlike crates first second where
  hash := same
  isDuplicate dedup := ⟨isDuplicate_of_calculateHash_eq dedup same,
    isDuplicate_of_calculateHash_eq dedup same.symm⟩

theorem hashesAlike_iff_simhash {first second : String}
    (cleaned : cleanedText crates first = cleanedText crates second) :
    HashesAlike crates first second ↔ 4 ≤ (cleanedText crates first).utf8ByteSize ∨
      crates.simhash.simhash first = crates.simhash.simhash second := by
  by_cases long : 4 ≤ (cleanedText crates first).utf8ByteSize
  · refine iff_of_true (hashesAlike_of_eq ?_) (Or.inl long)
    have features : featuresOf crates first = featuresOf crates second := by
      rw [featuresOf, featuresOf, cleaned]
    rw [calculateHash_of_long long, calculateHash_of_long (cleaned ▸ long), features]
  · have hashes : calculateHash crates first = calculateHash crates second ↔
        crates.simhash.simhash first = crates.simhash.simhash second := by
      rw [calculateHash_of_short long, calculateHash_of_short (cleaned ▸ long)]
    rw [or_iff_right long, ← hashes]
    exact ⟨HashesAlike.hash, hashesAlike_of_eq⟩

/-- A crate that tells a text from all others. -/
def tellsApart (text : String) : SimhashCrate where
  simhash other := if other = text then 1 else 0
  simhashStream _ := 0

/-- Texts with the same cleaned text have the same hash if and only if that is four bytes long or
the `simhash` crate gives the texts themselves the same hash. They have it whatever the crate
computes if and only if the cleaned text is four bytes long or the texts are the same. -/
theorem hashesAlike_iff {first second : String}
    (cleaned : cleanedText crates first = cleanedText crates second) :
    (HashesAlike crates first second ↔ 4 ≤ (cleanedText crates first).utf8ByteSize ∨
        crates.simhash.simhash first = crates.simhash.simhash second) ∧
      ((∀ simhash, HashesAlike { crates with simhash } first second) ↔
        4 ≤ (cleanedText crates first).utf8ByteSize ∨ first = second) := by
  refine ⟨hashesAlike_iff_simhash cleaned, ?_⟩
  have each (simhash : SimhashCrate) : HashesAlike { crates with simhash } first second ↔
      4 ≤ (cleanedText crates first).utf8ByteSize ∨
        simhash.simhash first = simhash.simhash second :=
    hashesAlike_iff_simhash cleaned
  constructor
  · intro alike
    refine ((each (tellsApart first)).mp (alike _)).imp_right fun same => ?_
    by_contra different
    have values : (1 : BitVec 64) = 0 :=
      (if_pos rfl).symm.trans (same.trans (if_neg (Ne.symm different)))
    cases values
  · rintro (long | rfl) simhash
    · exact (each simhash).mpr (Or.inl long)
    · exact hashesAlike_of_eq rfl

/-- The small web with the hashes of three words. -/
def sampleWordCrates : Crates SampleUrl where
  __ := sampleCrates
  simhash := {
    simhash := fun text =>
      if text = "a" then 0x57af97ecc6dfeb45#64
      else if text = "A" then 0x9aa28ee4e6e30ef1#64 else 0
    simhashStream := fun features =>
      if features = ["rust"] then 0xbe07e1950497b6c4#64 else 0 }

theorem hashesAlike_iff_sample : HashesAlike sampleWordCrates "Rust!" "rust" ∧
    ¬ HashesAlike sampleWordCrates "a" "A" := by
  constructor
  · exact (hashesAlike_iff (by decide +kernel)).1.mpr (Or.inl (by decide +kernel))
  · rw [(hashesAlike_iff (by decide +kernel)).1]
    decide +kernel

/-- The letter case of a short text makes another hash, and the text is no duplicate. -/
theorem short_text_apart : cleanedText sampleWordCrates "a" = cleanedText sampleWordCrates "A" ∧
    calculateHash sampleWordCrates "a" ≠ calculateHash sampleWordCrates "A" ∧
    (((ContentDeduplicator.init [] 3).insert sampleWordCrates "a").2.isDuplicate sampleWordCrates
      "A") = false := by
  decide +kernel

end PoliteCrawler
