/-
This file compares the near-duplicate index of a running storage service with
the index a restart would build from the same database file.

The two hold the same hashes until a page write replaces a stored hash that no
other row has: the row loses it, the index keeps it. Without failing database
calls this is the only way in which they come apart.
-/

import PoliteCrawler.Atomicity

namespace PoliteCrawler

open CrawlerDb ContentDeduplicator

/-! ### Replaced hashes -/

section Replaces

variable {Url : Type} (crates : Crates Url)

/-- The index holds exactly the stored hashes. -/
def IndexMatches (storage : CrawlerStorage Url) : Prop :=
  ∀ hash, hash ∈ storage.dedup.hashes ↔ hash ∈ storage.db.simhashes

/-- Writing the hash column of a URL replaces a hash that no row of another URL has. -/
def Overwrites (db : CrawlerDb) (url : String) (written : Option (BitVec 64)) : Prop :=
  ∃ row ∈ db.pages.rows, row.url = url ∧ ∃ hash, row.simhash = some hash ∧ written ≠ some hash ∧
    ∀ other ∈ db.pages.rows, other.url ≠ url → other.simhash ≠ some hash

/-- Saving the page replaces a stored hash. -/
def ReplacesHash (storage : CrawlerStorage Url) (faults : DbFaults) (page : ParsedPageSaveData) :
    Prop :=
  allFail faults.write = false ∧ (∃ id, Identified crates storage faults page id) ∧
    ∃ written, writtenHash crates storage.dedup page = some written ∧
      Overwrites storage.db page.url written

/-- A page upsert loses no hash exactly when it overwrites none. -/
theorem not_overwrites_iff (domId : Int) {db : CrawlerDb} {page : ParsedPageSaveData}
    {written : Option (BitVec 64)} : ¬ Overwrites db page.url written ↔
      ∀ hash ∈ db.simhashes, hash ∈ (db.upsertPage (pageRow domId page written)).simhashes := by
  constructor
  · intro kept hash member
    rw [mem_simhashes_upsertPage]
    by_contra lost
    obtain ⟨unwritten, unique⟩ := not_or.mp lost
    obtain ⟨row, stored, column⟩ := mem_simhashes.mp member
    by_cases same : row.url = page.url
    · exact kept ⟨row, stored, same, hash, column, unwritten, fun other memberOther different
        columnOther => unique ⟨other, memberOther, different, columnOther⟩⟩
    · exact unique ⟨row, stored, same, column⟩
  · rintro kept ⟨row, stored, same, hash, column, unwritten, unique⟩
    rcases mem_simhashes_upsertPage.mp (kept hash (mem_simhashes.mpr ⟨row, stored, column⟩)) with
      written | ⟨other, memberOther, different, columnOther⟩
    · exact unwritten written
    · exact unique other memberOther different columnOther

/-- A write of a hash that the index gains keeps the index equal to the table exactly when it
overwrites no hash. -/
theorem matches_upsertPage_iff (domId : Int) {db : CrawlerDb} {page : ParsedPageSaveData}
    {written : Option (BitVec 64)} {indexed : BitVec 64 → Prop}
    (equal : ∀ hash, indexed hash ↔ hash ∈ db.simhashes) :
    (∀ hash, (written = some hash ∨ indexed hash) ↔
        hash ∈ (db.upsertPage (pageRow domId page written)).simhashes) ↔
      ¬ Overwrites db page.url written := by
  rw [not_overwrites_iff domId]
  constructor
  · intro both hash member
    exact (both hash).mp (Or.inr ((equal hash).mpr member))
  · intro kept hash
    constructor
    · rintro (same | old)
      · exact mem_simhashes_upsertPage.mpr (Or.inl same)
      · exact kept hash ((equal hash).mp old)
    · intro member
      rcases simhashes_upsertPage_subset member with same | old
      · exact Or.inl same
      · exact Or.inr ((equal hash).mpr old)

theorem replacesHash_iff {storage : CrawlerStorage Url} {faults : DbFaults}
    {page : ParsedPageSaveData} {id : Int} {written : Option (BitVec 64)}
    (succeeds : allFail faults.write = false)
    (identified : Identified crates storage faults page id)
    (write : writtenHash crates storage.dedup page = some written) :
    ReplacesHash crates storage faults page ↔ Overwrites storage.db page.url written := by
  constructor
  · rintro ⟨_, _, other, same, overwrites⟩
    obtain rfl : written = other := Option.some.inj (write.symm.trans same)
    exact overwrites
  · exact fun overwrites => ⟨succeeds, ⟨id, identified⟩, written, write, overwrites⟩

/-- The save does not bring the index and the table apart: it replaces no stored hash, and its
write does not fail after the index has taken the text. -/
def KeepsMatching (storage : CrawlerStorage Url) (faults : DbFaults) (data : ParsedData) : Prop :=
  ∀ page, data = .parsedPage page →
    ¬ ReplacesHash crates storage faults page ∧ ¬ TearsSave crates storage faults (.parsedPage page)

/-- A page that is written keeps the index equal to the table exactly when it replaces no hash. -/
theorem keepsMatching_of_written {storage : CrawlerStorage Url} {faults : DbFaults}
    {page : ParsedPageSaveData} {id : Int} {written : Option (BitVec 64)}
    (succeeds : allFail faults.write = false)
    (identified : Identified crates storage faults page id)
    (write : writtenHash crates storage.dedup page = some written) :
    KeepsMatching crates storage faults (.parsedPage page) ↔
      ¬ Overwrites storage.db page.url written := by
  rw [← replacesHash_iff crates succeeds identified write]
  constructor
  · exact fun keeps => (keeps page rfl).1
  · intro kept other same
    obtain rfl := ParsedData.parsedPage.inj same
    exact ⟨kept, fun torn => Bool.false_ne_true (succeeds.symm.trans torn.1)⟩

/-- A save keeps the index equal to the table exactly when it neither replaces a stored hash nor
fails after the index has taken the text. -/
theorem Saved.indexMatches_iff {before after : CrawlerStorage Url} {faults : DbFaults}
    {data : ParsedData} {result : Outcome (List String)}
    (saved : Saved crates before faults data result after) (equal : IndexMatches before)
    (dist : before.dedup.maxDist = 3) (fit : CacheIdentifies before) :
    IndexMatches after ↔ KeepsMatching crates before faults data := by
  cases saved with
  | refused unidentified _ =>
    refine iff_of_true equal ?_
    rintro _ ⟨⟩
    constructor
    · rintro ⟨_, ⟨id, identified⟩, _⟩
      exact unidentified id identified
    · rintro ⟨_, ⟨id, identified⟩, _⟩
      exact unidentified id identified
  | @duplicate page _ txt _ _ _ text known _ =>
    refine iff_of_true equal ?_
    rintro _ ⟨⟩
    constructor
    · rintro ⟨_, _, written, write, _⟩
      simp only [writtenHash, text, known, if_true] at write
      cases write
    · rintro ⟨_, _, other, same, fresh⟩
      obtain rfl := Option.some.inj (text.symm.trans same)
      exact Bool.false_ne_true (fresh.symm.trans known)
  | @written page id txt _ _ identified text fresh stored _ =>
    have write : writtenHash crates before.dedup page = some (some (calculateHash crates txt)) := by
      simp only [writtenHash, text, fresh, Bool.false_eq_true, if_false]
    have succeeds := not_allFail_of_saveParsedPage (identified.stored crates fit) stored
    rw [keepsMatching_of_written crates succeeds identified write,
      ← matches_upsertPage_iff id equal]
    refine forall_congr' fun hash => ?_
    rw [hashes_insert, Set.mem_insert_iff, Option.some_inj, eq_comm]
  | @unwritten page id txt _ _ identified text fresh failed _ =>
    have fails := allFail_of_saveParsedPage (identified.stored crates fit) failed
    refine iff_of_false (fun equalAfter => ?_) fun keeps =>
      (keeps page rfl).2 ⟨fails, ⟨id, identified⟩, txt, text, fresh⟩
    have indexed : calculateHash crates txt ∈ before.dedup.hashes := by
      refine (equal _).mpr ((equalAfter _).mp ?_)
      rw [hashes_insert]
      exact Set.mem_insert _ _
    have far := far_of_fresh crates ⟨dist, fun hash => (equal hash).mpr⟩ fresh indexed
    rw [hammingDistance_self] at far
    exact Nat.not_lt_zero _ far
  | @blank page id _ _ identified text stored _ =>
    have write : writtenHash crates before.dedup page = some none := by
      simp only [writtenHash, text]
    have succeeds := not_allFail_of_saveParsedPage (identified.stored crates fit) stored
    rw [keepsMatching_of_written crates succeeds identified write,
      ← matches_upsertPage_iff id equal]
    refine forall_congr' fun hash => ?_
    simp only [reduceCtorEq, false_or]
  | @blankUnwritten page id _ _ identified text failed _ =>
    have fails := allFail_of_saveParsedPage (identified.stored crates fit) failed
    refine iff_of_true equal ?_
    rintro _ ⟨⟩
    constructor
    · intro replaces
      exact Bool.false_ne_true (replaces.1.symm.trans fails)
    · rintro ⟨_, _, _, same, _⟩
      exact Option.some_ne_none _ (same.symm.trans text)
  | domainRefused => exact iff_of_true equal fun _ same => by cases same
  | domainUncached => exact iff_of_true equal fun _ same => by cases same
  | domainSaved => exact iff_of_true equal fun _ same => by cases same

/-- The index equals the table, and the cached domains have rows. -/
structure Matching (storage : CrawlerStorage Url) : Prop where
  dist : storage.dedup.maxDist = 3
  equal : IndexMatches storage
  fit : CacheIdentifies storage

theorem matching_started (db : CrawlerDb) (userAgent : String) :
    Matching (CrawlerStorage.started db.simhashes db userAgent : CrawlerStorage Url) where
  dist := rfl
  equal hash := by
    show hash ∈ (ContentDeduplicator.init db.simhashes 3).hashes ↔ _
    rw [hashes_init]
    exact Iff.rfl
  fit := cacheFits_started _ db userAgent

theorem Matching.covers {storage : CrawlerStorage Url} (matching : Matching storage) :
    IndexCovers storage :=
  ⟨matching.dist, fun hash => (matching.equal hash).mpr⟩

/-- A service rebuilt from the table of a matching one gives the same answers. -/
theorem Matching.isDuplicate_eq {storage : CrawlerStorage Url} (matching : Matching storage)
    {faults : DbFaults} {rebuilt : CrawlerStorage Url}
    (built : CrawlerStorage.new true storage.db faults storage.agentName = .ok rebuilt)
    (txt : String) :
    storage.dedup.isDuplicate crates txt = rebuilt.dedup.isDuplicate crates txt := by
  obtain rfl := CrawlerStorage.new_ok built
  have reloaded : Matching (CrawlerStorage.started storage.db.simhashes storage.db
      storage.agentName : CrawlerStorage Url) := matching_started storage.db storage.agentName
  refine isDuplicate_congr crates (le_of_eq matching.dist) ?_ ?_ txt
  · exact matching.dist.trans reloaded.dist.symm
  · exact Set.ext fun hash => (matching.equal hash).trans (reloaded.equal hash).symm

/-- The database calls of a save succeed, and the save replaces no stored hash. -/
def KeepsHashes (storage : CrawlerStorage Url) : StorageOp Url → Prop
  | .save data faults => faults = DbFaults.none ∧
      ∀ page, data = .parsedPage page → ¬ ReplacesHash crates storage faults page
  | _ => True

theorem keepsMatching_of_keepsHashes {storage : CrawlerStorage Url} {op : StorageOp Url}
    (keeps : KeepsHashes crates storage op) (data : ParsedData) (faults : DbFaults)
    (same : op = .save data faults) : KeepsMatching crates storage faults data := by
  subst same
  obtain ⟨rfl, kept⟩ := keeps
  exact fun page same => ⟨kept page same, fun torn => Bool.false_ne_true torn.1⟩

end Replaces

/-! ### Runs without failing database calls -/

section Runs

variable {Url : Type} (crates : Crates Url)

/-- An operation keeps the index equal to the table, when a save keeps them so. -/
theorem storageStep_matching {op : StorageOp Url} {before after : CrawlerStorage Url}
    (matching : Matching before)
    (keeps : ∀ data faults, op = .save data faults → KeepsMatching crates before faults data)
    (moved : storageStep crates op before = some after) : Matching after := by
  have fit := storageStep_cacheIdentifies crates matching.fit moved
  rcases storageStep_cases crates moved with ⟨data, faults, rfl, saved⟩ | rfl | ⟨_, _, _, rfl⟩
  · exact {
      dist := (saved.indexCovers crates matching.covers).dist
      equal := (saved.indexMatches_iff crates matching.equal matching.dist matching.fit).mpr
        (keeps data faults rfl)
      fit := fit }
  · exact matching_started _ _
  · exact ⟨matching.dist, matching.equal, fit⟩

/-- In every run whose saves have no failing database call and replace no stored hash, the index
holds exactly the stored hashes, and a restart on the same file changes no answer. -/
theorem restart_keeps_answers {pathExists : Bool} {db : CrawlerDb} {faults : DbFaults}
    {userAgent : String} {first last : CrawlerStorage Url}
    (plainPath : pathExists = false → db = CrawlerDb.empty)
    (built : CrawlerStorage.new pathExists db faults userAgent = .ok first)
    (reached : Transition.ReachesWith (storageStep crates) (KeepsHashes crates) first last) :
    IndexMatches last ∧ ∀ (reloadFaults : DbFaults) (rebuilt : CrawlerStorage Url),
      CrawlerStorage.new true last.db reloadFaults last.agentName = .ok rebuilt →
        ∀ txt, last.dedup.isDuplicate crates txt = rebuilt.dedup.isDuplicate crates txt := by
  have start := CrawlerStorage.new_of_plainPath plainPath built
  have matching : Matching last :=
    reached.invariant (start ▸ matching_started db userAgent)
      fun _ _ _ kept allowed moved =>
        storageStep_matching crates kept (keepsMatching_of_keepsHashes crates allowed) moved
  exact ⟨matching.equal, fun _ _ => matching.isDuplicate_eq crates⟩

/-- A page of a new domain is saved. -/
theorem restart_keeps_answers_sample : ∃ last : CrawlerStorage SampleUrl,
    Transition.run (storageStep sampleCrates)
        (sampleSaves [sampleDomainEvent, .parsedPage (samplePage .home "")]) sampleStorage =
      some last ∧ last.db.simhashes = [0] ∧ IndexMatches last := by
  have built : CrawlerStorage.new false CrawlerDb.empty DbFaults.none "EDUCATIONAL_CRAWLER" =
      .ok sampleStorage := rfl
  have domainKept : KeepsHashes sampleCrates sampleStorage
      (.save sampleDomainEvent DbFaults.none) :=
    ⟨rfl, fun _ same => by cases same⟩
  have pageKept : KeepsHashes sampleCrates
      (sampleStorage.saveParsedData sampleCrates DbFaults.none sampleDomainEvent).2
      (.save (.parsedPage (samplePage .home "")) DbFaults.none) :=
    ⟨rfl, fun _ _ ⟨_, _, _, _, _, stored, _⟩ => absurd stored List.not_mem_nil⟩
  exact ⟨_, rfl, by decide +kernel, (restart_keeps_answers sampleCrates (fun _ => rfl) built
    (.move (.move .start domainKept rfl) pageKept rfl)).1⟩

/-- The page is saved again with another text: the running service still takes its first text for
a duplicate, the restarted one does not. -/
theorem restart_forgets_replaced_hash : ∃ last rebuilt : CrawlerStorage SampleUrl,
    Transition.run (storageStep sampleCrates)
        (sampleSaves [sampleDomainEvent, .parsedPage (samplePage .home ""),
          .parsedPage (samplePage .home "a")]) sampleStorage = some last ∧
      CrawlerStorage.new true last.db DbFaults.none last.agentName = .ok rebuilt ∧
      last.dedup.isDuplicate sampleCrates "" = true ∧
      rebuilt.dedup.isDuplicate sampleCrates "" = false :=
  ⟨_, _, rfl, CrawlerStorage.new_faultless _ _, by decide +kernel, by decide +kernel⟩

end Runs

end PoliteCrawler
