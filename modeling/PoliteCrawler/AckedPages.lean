/-
This file says when an acknowledged page is accounted for in the table.

The consumer acknowledges a page whose text the index takes for a duplicate
without writing it. That is sound as long as the index holds no hash the table
lacks: the two ways in which it gains one are excluded from the runs below.
-/

import PoliteCrawler.AtLeastOnce
import PoliteCrawler.RestartEquivalence

namespace PoliteCrawler

open CrawlerDb ContentDeduplicator

section AckedPages

variable {Url : Type} (crates : Crates Url)

/-- The table has the page's row, or a row whose hash is near the page's. -/
def Backed (db : CrawlerDb) (page : ParsedPageSaveData) (txt : String) : Prop :=
  (∃ domId, pageRow domId page (some (calculateHash crates txt)) ∈ db.pages.rows) ∨
    ∃ row ∈ db.pages.rows, ∃ hash, row.simhash = some hash ∧
      hammingDistance hash (calculateHash crates txt) ≤ 3

/-- The table accounts for the entry, when it is a page with a text. -/
def EntryBacked (db : CrawlerDb) (entry : StreamEntry) : Prop :=
  ∀ payload page txt, entry = some payload →
    crates.fromJson payload = some (.parsedPage page) → page.cleanText = some txt →
      Backed crates db page txt

/-- A page that is saved while the index equals the table is accounted for. -/
theorem Saved.backed {before after : CrawlerStorage Url} {faults : DbFaults}
    {page : ParsedPageSaveData} {answer : List String} {txt : String}
    (saved : Saved crates before faults (.parsedPage page) (.ok answer) after)
    (matching : Matching before) (text : page.cleanText = some txt) :
    Backed crates after.db page txt := by
  cases saved with
  | duplicate _ sameText known _ =>
    obtain rfl := Option.some.inj (text.symm.trans sameText)
    obtain ⟨hash, indexed, near⟩ :=
      (isDuplicate_iff crates before.dedup (le_of_eq matching.dist) txt).mp known
    obtain ⟨row, stored, column⟩ := mem_simhashes.mp ((matching.equal hash).mp indexed)
    exact Or.inr ⟨row, stored, hash, column, matching.dist ▸ near⟩
  | @written _ id _ _ _ _ sameText _ _ _ =>
    obtain rfl := Option.some.inj (text.symm.trans sameText)
    exact Or.inl ⟨id, (mem_upsertPage before.db _).mpr (Or.inl rfl)⟩
  | blank _ noText _ _ => cases text.symm.trans noText

/-- An entry that is processed while the index equals the table is accounted for. -/
theorem processStreamEntry_backed {storage : CrawlerStorage Url} {faults : DbFaults}
    {entry : StreamEntry} {sitemaps : List String} (matching : Matching storage)
    (processed : (processStreamEntry crates storage faults entry).1 = .ok sitemaps) :
    EntryBacked crates (processStreamEntry crates storage faults entry).2.db entry := by
  rintro payload page txt rfl decoded text
  simp only [processStreamEntry, decoded] at processed ⊢
  have saved := saveParsedData_saved crates storage faults (.parsedPage page)
  rw [processed] at saved
  exact saved.backed crates matching text

/-- What is processed does not bring the index and the table apart. -/
def KeepsPages (service : StorageService Url) : ServiceAction Url → Prop
  | .process faults => ∀ payload id batch data,
      service.consumer = .processing ((some payload, id) :: batch) →
      crates.fromJson payload = some data →
        KeepsMatching crates service.storage faults data
  | _ => True

/-- What the runs that keep the pages keep. -/
structure Accounting (service : StorageService Url) : Prop where
  matching : Matching service.storage
  delivered : ∀ entry id, (entry, id) ∈ service.consumer.batch →
    service.log.entries[id]? = some entry
  backed : ∀ id, service.consumer.acking = some id →
    ∃ entry, service.log.entries[id]? = some entry ∧ EntryBacked crates service.storage.db entry

/-- The parts of the invariant that a step of the consumer keeps when it changes neither the
table nor, but for new entries, the log. -/
theorem Accounting.goesOn {service next : StorageService Url}
    (accounting : Accounting crates service)
    (matching : Matching next.storage) (db : next.storage.db = service.storage.db)
    (entries : next.log.entries = service.log.entries)
    (batch : ∀ left ∈ next.consumer.batch, left ∈ service.consumer.batch)
    (acking : ∀ id, next.consumer.acking = some id → service.consumer.acking = some id) :
    Accounting crates next where
  matching := matching
  delivered entry id member := by
    rw [entries]
    exact accounting.delivered entry id (batch _ member)
  backed id same := by
    rw [entries, db]
    exact accounting.backed id (acking id same)

theorem processStreamEntry_matching {storage : CrawlerStorage Url} {faults : DbFaults}
    {entry : StreamEntry} (matching : Matching storage)
    (keeps : ∀ payload data, entry = some payload → crates.fromJson payload = some data →
      KeepsMatching crates storage faults data) :
    Matching (processStreamEntry crates storage faults entry).2 := by
  cases entry with
  | none => exact matching
  | some payload =>
    cases decoded : crates.fromJson payload with
    | none =>
      simp only [processStreamEntry, decoded]
      exact matching
    | some data =>
      simp only [processStreamEntry, decoded]
      have stepped : storageStep crates (.save data faults) storage =
          some (storage.saveParsedData crates faults data).2 := rfl
      refine storageStep_matching crates matching ?_ stepped
      rintro _ _ ⟨⟩
      exact keeps payload data rfl decoded

theorem afterLookup_matching {storage : CrawlerStorage Url} (matching : Matching storage)
    (request : Lookup Url) : Matching (storage.afterLookup crates request) := by
  have stepped : storageStep crates (.lookup request) storage =
      some (storage.afterLookup crates request) := rfl
  exact storageStep_matching crates matching (fun _ _ same => by cases same) stepped

/-- What is processed leaves the pages matching, and the rest of the batch where it was read. -/
theorem Accounting.front {service : StorageService Url} (accounting : Accounting crates service)
    {faults : DbFaults} {entry : StreamEntry} {id : Nat} {batch : List (StreamEntry × Nat)}
    (processing : service.consumer = .processing ((entry, id) :: batch))
    (keeps : KeepsPages crates service (.process faults)) :
    Matching (processStreamEntry crates service.storage faults entry).2 ∧
      service.log.entries[id]? = some entry ∧
      ∀ other otherId, (other, otherId) ∈ batch → service.log.entries[otherId]? = some other := by
  have delivered := accounting.delivered
  rw [processing] at delivered
  refine ⟨?_, delivered entry id List.mem_cons_self, fun other otherId member =>
    delivered other otherId (List.mem_cons_of_mem _ member)⟩
  refine processStreamEntry_matching crates accounting.matching fun payload data same decoded => ?_
  subst same
  exact keeps payload id batch data processing decoded

theorem ServiceMoved.accounting {service next : StorageService Url} {action : ServiceAction Url}
    (moved : ServiceMoved crates service action next) (accounting : Accounting crates service)
    (keeps : KeepsPages crates service action) : Accounting crates next := by
  have matching := accounting.matching
  cases moved with
  | published added =>
    refine ⟨matching, fun entry id member => ?_, fun id same => ?_⟩
    · exact GroupedLog.getElem?_append (accounting.delivered entry id member) added
    · obtain ⟨entry, found, backed⟩ := accounting.backed id same
      exact ⟨entry, GroupedLog.getElem?_append found added, backed⟩
  | started _ _ => exact ⟨matching_started _ _, nofun, nofun⟩
  | groupCreated _ _ idle =>
    obtain ⟨batch, acking⟩ := Consumer.idle_of_inHand idle
    refine accounting.goesOn crates matching rfl rfl ?_ ?_
    · exact fun _ member => absurd (batch ▸ member) List.not_mem_nil
    · exact fun _ same => absurd (acking.symm.trans same) (Option.some_ne_none _).symm
  | groupFailed _ => exact ⟨matching, nofun, nofun⟩
  | readAnswered _ =>
    refine ⟨matching, fun entry id member => ?_, fun id same => ?_⟩
    · rw [Consumer.batch_next] at member
      have found : service.log.entries[id]? = some entry := GroupedLog.mem_fresh member
      exact found
    · rw [Consumer.acking_next] at same
      cases same
  | readLost _ => exact ⟨matching, accounting.delivered, accounting.backed⟩
  | readFailed => exact accounting
  | @processed faults entry id _ _ processing succeeded =>
    obtain ⟨kept, found, rest⟩ := accounting.front crates processing keeps
    refine ⟨kept, rest, ?_⟩
    rintro _ ⟨⟩
    exact ⟨entry, found, processStreamEntry_backed crates matching succeeded⟩
  | dropped processing _ goesOn =>
    obtain ⟨kept, _, rest⟩ := accounting.front crates processing keeps
    refine ⟨kept, fun other otherId member => ?_, fun other same => ?_⟩
    · rcases goesOn with rfl | rfl
      · cases member
      · rw [Consumer.batch_next] at member
        exact rest other otherId member
    · rcases goesOn with rfl | rfl
      · cases same
      · rw [Consumer.acking_next] at same
        cases same
  | @offered _ _ _ storage _ _ offering noted goesOn =>
    have kept : Matching storage ∧ storage.db = service.storage.db := by
      rcases noted with rfl | ⟨url, rfl⟩
      · exact ⟨matching, rfl⟩
      · exact ⟨afterLookup_matching crates matching (.insertUrl url), rfl⟩
    refine accounting.goesOn crates kept.1 kept.2 rfl ?_ ?_ <;>
      rcases goesOn with rfl | ⟨url, rfl⟩ <;> simp [offering]
  | pushed pushing _ goesOn | pushFailed pushing goesOn =>
    refine accounting.goesOn crates matching rfl rfl ?_ ?_ <;>
      rcases goesOn with rfl | rfl <;> simp [pushing]
  | acked acking _ | ackFailed acking =>
    refine accounting.goesOn crates matching rfl rfl ?_ ?_ <;> simp [acking]
  | shutDown _ => exact ⟨matching, nofun, nofun⟩
  | killed => exact ⟨matching, nofun, nofun⟩
  | looked request =>
    obtain ⟨_, _, _, state⟩ := afterLookup_state crates service.storage request
    refine accounting.goesOn crates (afterLookup_matching crates matching request) ?_ rfl ?_ ?_
    · show (service.storage.afterLookup crates request).db = service.storage.db
      rw [state]
    · exact fun _ member => member
    · exact fun _ same => same

/-- In every run that keeps the pages, a page message with a text is accounted for in the table at
the moment it is acknowledged. -/
theorem acked_page_backed {db : CrawlerDb} {userAgent : String}
    {service next : StorageService Url} {call : Call} {id : Nat} {payload : String}
    {page : ParsedPageSaveData} {txt : String}
    (reached : Transition.ReachesWith (serviceStep crates) (KeepsPages crates)
      (StorageService.initial db userAgent) service)
    (_ : serviceStep crates (.ack call) service = some next)
    (acking : service.consumer.acking = some id)
    (published : service.log.entries[id]? = some (some payload))
    (decoded : crates.fromJson payload = some (.parsedPage page))
    (text : page.cleanText = some txt) : Backed crates service.storage.db page txt := by
  have start : Accounting crates (StorageService.initial db userAgent : StorageService Url) :=
    ⟨matching_started db userAgent, nofun, nofun⟩
  have accounting := reached.invariant start fun before action after accounting keeps moved =>
    (serviceStep_moved crates moved).accounting crates accounting keeps
  obtain ⟨entry, found, backed⟩ := accounting.backed id acking
  obtain rfl := Option.some.inj (published.symm.trans found)
  exact backed payload page txt rfl decoded text

end AckedPages

/-! ### The sample web -/

/-- Two pages of one text are published and read. -/
def samplePages : List (ServiceAction SampleUrl) :=
  [.start DbFaults.none, .createGroup .answered,
    .publish (sampleEntry (.parsedPage (samplePage .home ""))),
    .publish (sampleEntry (.parsedPage (samplePage .about ""))), .read .answered]

/-- The storage service of the sample web on a database that knows the first site. -/
def sampleKnownService : StorageService SampleUrl :=
  StorageService.initial CrawlerDb.sample "EDUCATIONAL_CRAWLER"

theorem samplePages_keep : Transition.Permits (serviceStep sampleCrates) (KeepsPages sampleCrates)
    (samplePages ++ [.process DbFaults.none]) sampleKnownService := by
  have decodedPage : sampleCrates.fromJson
      (sampleCrates.toJson (.parsedPage (samplePage .home ""))) =
        some (.parsedPage (samplePage .home "")) := by decide +kernel
  refine ⟨trivial, ?_⟩
  rintro _ ⟨⟩
  refine ⟨trivial, ?_⟩
  rintro _ ⟨⟩
  refine ⟨trivial, ?_⟩
  rintro _ ⟨⟩
  refine ⟨trivial, ?_⟩
  rintro _ ⟨⟩
  refine ⟨trivial, ?_⟩
  rintro _ ⟨⟩
  refine ⟨?_, fun _ _ => trivial⟩
  rintro _ _ _ _ ⟨⟩ decoded
  obtain rfl := Option.some.inj (decodedPage.symm.trans decoded)
  exact fun _ _ => ⟨fun ⟨_, _, _, _, _, stored, _⟩ => absurd stored List.not_mem_nil,
    fun torn => Bool.false_ne_true torn.1⟩

/-- The first page is written, and acknowledged after that. -/
theorem acked_page_backed_samplePages : ∃ service next : StorageService SampleUrl,
    Transition.run (serviceStep sampleCrates) (samplePages ++ [.process DbFaults.none])
        sampleKnownService = some service ∧
      serviceStep sampleCrates (.ack .answered) service = some next ∧
      Backed sampleCrates service.storage.db (samplePage .home "") "" := by
  obtain ⟨service, ran⟩ : ∃ service, Transition.run (serviceStep sampleCrates)
    (samplePages ++ [.process DbFaults.none]) sampleKnownService = some service := ⟨_, rfl⟩
  have state : (Transition.run (serviceStep sampleCrates) (samplePages ++ [.process DbFaults.none])
      sampleKnownService).map (fun service => (service.consumer.acking, service.log.entries[0]?,
        (serviceStep sampleCrates (.ack .answered) service).isSome)) =
      some (some 0, some (sampleEntry (.parsedPage (samplePage .home ""))), true) := by
    decide +kernel
  rw [ran] at state
  simp only [Option.map_some, Option.some.injEq, Prod.mk.injEq] at state
  obtain ⟨acking, published, stepped⟩ := state
  obtain ⟨next, stepped⟩ := Option.isSome_iff_exists.mp stepped
  exact ⟨service, next, ran, stepped, acked_page_backed sampleCrates
    (Transition.reachesWith_of_run ran samplePages_keep) stepped acking published
    (by decide +kernel) rfl⟩

/-- The write of the first page fails after the index has taken its text. The second page is
acknowledged as its duplicate, while the table has no page at all. -/
theorem acked_page_missing : ∃ service next : StorageService SampleUrl,
    Transition.run (serviceStep sampleCrates)
        (samplePages ++ [.process ⟨fun _ => false, fun _ => true⟩, .process DbFaults.none])
        sampleKnownService = some service ∧
      serviceStep sampleCrates (.ack .answered) service = some next ∧
      service.consumer.acking = some 1 ∧
      service.log.entries[1]? = some (sampleEntry (.parsedPage (samplePage .about ""))) ∧
      sampleCrates.fromJson (sampleCrates.toJson (.parsedPage (samplePage .about ""))) =
        some (.parsedPage (samplePage .about "")) ∧
      ¬ Backed sampleCrates service.storage.db (samplePage .about "") "" := by
  obtain ⟨service, ran⟩ : ∃ service, Transition.run (serviceStep sampleCrates)
    (samplePages ++ [.process ⟨fun _ => false, fun _ => true⟩, .process DbFaults.none])
    sampleKnownService = some service := ⟨_, rfl⟩
  have state : (Transition.run (serviceStep sampleCrates)
      (samplePages ++ [.process ⟨fun _ => false, fun _ => true⟩, .process DbFaults.none])
      sampleKnownService).map (fun service => (service.consumer.acking, service.log.entries[1]?,
        (serviceStep sampleCrates (.ack .answered) service).isSome, service.storage.db.pages.rows))
      = some (some 1, some (sampleEntry (.parsedPage (samplePage .about ""))), true, []) := by
    decide +kernel
  rw [ran] at state
  simp only [Option.map_some, Option.some.injEq, Prod.mk.injEq] at state
  obtain ⟨acking, published, stepped, noRows⟩ := state
  obtain ⟨next, stepped⟩ := Option.isSome_iff_exists.mp stepped
  refine ⟨service, next, ran, stepped, acking, published, by decide +kernel, ?_⟩
  rintro (⟨domId, stored⟩ | ⟨row, stored, _⟩) <;>
    exact absurd (noRows ▸ stored) List.not_mem_nil

end PoliteCrawler
