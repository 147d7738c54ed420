/-
This file says which stream entries can kill the consumer.

Two calls of the service panic: the parse of a page's URL, which is unwrapped, and
the conversion of a delay. A domain's delay is written to the table before it is
converted, and converted again by every lookup that reads the row. So the rows of
a table that only harmless entries have written are read back without a panic,
and one entry that is not harmless ends the consumer and leaves its row behind.
-/

import PoliteCrawler.PendingEvents

namespace PoliteCrawler

open CrawlerDb

variable {Url : Type} (crates : Crates Url)

/-! ### Entries and states -/

/-- Saving the event reaches no panicking call. A domain event that is not written, or whose robots
text does not parse, is refused before its delay is converted. -/
def HarmlessEvent (agent : String) (faults : DbFaults) : ParsedData → Prop
  | .parsedPage page => ∃ url, crates.url.parse page.url = .ok url
  | .parsedDomain data => allFail faults.write = true ∨
      (∀ robot, parseRobot crates data.robots agent ≠ .ok robot) ∨ data.delay.toDuration ≠ none

def HarmlessEntry (agent : String) (faults : DbFaults) (entry : StreamEntry) : Prop :=
  ∀ event, eventOf crates entry = some event → HarmlessEvent crates agent faults event

/-- What moves the storage: the entries of the stream, and whatever else is asked of it. -/
inductive EntryAction (Url : Type)
  | entry (faults : DbFaults) (entry : StreamEntry)
  | lookup (request : Lookup Url)
  | restart (faults : DbFaults)

def entryStep : EntryAction Url → CrawlerStorage Url → Option (CrawlerStorage Url)
  | .entry faults entry, storage => some (processStreamEntry crates storage faults entry).2
  | .lookup request, storage => storageStep crates (.lookup request) storage
  | .restart faults, storage => storageStep crates (.restart faults) storage

def HarmlessAction (storage : CrawlerStorage Url) : EntryAction Url → Prop
  | .entry faults entry => HarmlessEntry crates storage.agentName faults entry
  | _ => True

/-- No lookup of any domain panics. -/
structure LookupsReturn (storage : CrawlerStorage Url) : Prop where
  check : ∀ faults url, (storage.checkIfUrlAllowed crates faults url).1 ≠ .error .panicked
  delay : ∀ faults domain, (storage.getDelay crates faults domain).1 ≠ .error .panicked
  domainId : ∀ faults domain, (storage.getDomainId crates faults domain).1 ≠ .error .panicked

/-- Every row of the domains is read back without a panic. -/
def RowsReturn (storage : CrawlerStorage Url) : Prop :=
  ∀ domain row, storage.db.domains.find? domain = some row →
    cachedRow crates storage.agentName row ≠ .error .panicked

variable {crates}

/-! ### Lookups -/

section Lookups

variable {storage : CrawlerStorage Url}

theorem map_ne_panicked {Value Answer : Type} {outcome : Outcome Value} {answer : Value → Answer}
    (returns : outcome ≠ .error .panicked) : outcome.map answer ≠ .error .panicked := by
  cases outcome with
  | ok value => exact nofun
  | error abort => exact fun same => returns (congrArg _ (Except.error.inj same))

theorem RowsReturn.cachedOrStored (rows : RowsReturn crates storage) (faults : DbFaults)
    (domain : String) : (storage.cachedOrStored crates faults domain).1 ≠ .error .panicked := by
  unfold CrawlerStorage.cachedOrStored
  split
  · exact fun panics => by cases panics
  · split
    · rename_i abort read
      rintro ⟨⟩
      unfold getCacheInfoAboutDomain at read
      rw [queryWithRetry_value] at read
      split at read
      · rename_i failed
        split at failed <;> cases failed
        cases read
      · cases read
      · rename_i row queried
        split at queried
        · cases queried
        · exact map_ne_panicked (rows domain row (Except.ok.inj queried)) read
    · exact fun panics => by cases panics
    · exact fun panics => by cases panics

theorem RowsReturn.lookups (rows : RowsReturn crates storage) : LookupsReturn crates storage where
  check faults url := by
    unfold CrawlerStorage.checkIfUrlAllowed
    split
    · exact nofun
    · exact map_ne_panicked (rows.cachedOrStored faults _)
  delay faults domain := map_ne_panicked (rows.cachedOrStored faults domain)
  domainId faults domain := map_ne_panicked (rows.cachedOrStored faults domain)

end Lookups

/-! ### Saves -/

section Saves

variable {storage : CrawlerStorage Url} {faults : DbFaults}

theorem retryFrom_ne_panicked {Value : Type} {operation : Nat → Outcome Value}
    (returns : ∀ i, operation i ≠ .error .panicked) :
    ∀ i left, retryFrom operation i left ≠ .error .panicked
  | i, 0 => returns i
  | i, left + 1 => by
    unfold retryFrom
    split
    · exact nofun
    · rename_i panics
      exact absurd panics (returns i)
    · exact retryFrom_ne_panicked returns (i + 1) left

theorem saveParsedPage_ne_panicked (db : CrawlerDb) (faults : DbFaults) (domId : Int)
    (page : ParsedPageSaveData) (hash : Option (BitVec 64)) :
    db.saveParsedPage faults domId page hash ≠ .error .panicked := by
  refine retryFrom_ne_panicked (fun attempt => ?_) _ _
  split
  · exact nofun
  · split <;> exact nofun

theorem writePage_ne_panicked (storage : CrawlerStorage Url) (faults : DbFaults) (domId : Int)
    (page : ParsedPageSaveData) (hash : Option (BitVec 64)) :
    (storage.writePage faults domId page hash).1 ≠ .error .panicked := by
  have written := saveParsedPage_ne_panicked storage.db faults domId page hash
  unfold CrawlerStorage.writePage
  split
  · rename_i abort failed
    rintro ⟨⟩
    exact written failed
  · exact nofun

/-- A page is saved or refused once its URL parses. -/
theorem RowsReturn.savePageOfDomain (rows : RowsReturn crates storage) (host : String)
    (page : ParsedPageSaveData) :
    (storage.savePageOfDomain crates faults host page).1 ≠ .error .panicked := by
  have found := rows.lookups.domainId faults host
  unfold CrawlerStorage.savePageOfDomain
  dsimp only
  split
  · rename_i abort failed
    rintro ⟨⟩
    exact found failed
  · exact fun same => by cases same
  · rename_i id _
    have saved : ((storage.getDomainId crates faults host).2.saveParsedPage crates faults id
        page).1 ≠ .error .panicked := by
      unfold CrawlerStorage.saveParsedPage
      split
      · split
        · exact fun same => by cases same
        · exact writePage_ne_panicked _ _ _ _ _
      · exact writePage_ne_panicked _ _ _ _ _
    split
    · rename_i abort failed
      rintro ⟨⟩
      exact saved failed
    · exact fun same => by cases same

/-- An entry is built, or its robots text does not parse, or its delay panics. -/
theorem CachedData.new_panics_iff {id : Int} {robots : Option String} {delay : F32}
    {agent : String} : CachedData.new crates id robots delay agent = .error .panicked ↔
      (∃ robot, parseRobot crates robots agent = .ok robot) ∧ delay.toDuration = none := by
  unfold CachedData.new
  cases parsed : parseRobot crates robots agent with
  | error abort =>
    refine iff_of_false ?_ (fun ⟨⟨_, same⟩, _⟩ => by cases same)
    rintro ⟨⟩
    unfold parseRobot at parsed
    split at parsed
    · split at parsed <;> cases parsed
    · cases parsed
  | ok robot => cases delay.toDuration <;> simp

/-- A domain event panics exactly when it is written and its delay is converted in vain. -/
theorem saveDomain_panics_iff {data : DomainDataSaveData} :
    (storage.saveDomain crates faults data).1 = .error .panicked ↔
      ¬ HarmlessEvent crates storage.agentName faults (.parsedDomain data) := by
  have harmless : HarmlessEvent crates storage.agentName faults (.parsedDomain data) ↔
      allFail faults.write = true ∨ ¬ ((∃ robot, parseRobot crates data.robots storage.agentName =
        .ok robot) ∧ data.delay.toDuration = none) := by
    unfold HarmlessEvent
    rw [not_and_or, not_exists]
  unfold CrawlerStorage.saveDomain
  rw [harmless, saveDomain_eq]
  cases fails : allFail faults.write with
  | true => simp
  | false =>
    simp only [Bool.false_eq_true, if_false, false_or, not_not]
    rw [← CachedData.new_panics_iff]
    split
    · rename_i abort failed
      rw [failed, Except.error.injEq, Except.error.injEq]
    · rename_i entry built
      rw [built]
      exact iff_of_false (fun panics => by cases panics) fun panics => by cases panics

/-- While every row can be read back, an entry panics exactly when it is not harmless. -/
theorem RowsReturn.process_iff (rows : RowsReturn crates storage) (entry : StreamEntry) :
    (processStreamEntry crates storage faults entry).1 ≠ .error .panicked ↔
      HarmlessEntry crates storage.agentName faults entry := by
  cases decoded : eventOf crates entry with
  | none =>
    refine iff_of_true ?_ fun event same => by cases decoded.symm.trans same
    exact (processStreamEntry_of_eventOf_none decoded storage faults).2
  | some event =>
    have only : HarmlessEntry crates storage.agentName faults entry ↔
        HarmlessEvent crates storage.agentName faults event :=
      ⟨fun harmless => harmless event decoded, fun harmless other same =>
        Option.some.inj (decoded.symm.trans same) ▸ harmless⟩
    rw [only, processStreamEntry_of_eventOf decoded]
    cases event with
    | parsedDomain data => exact saveDomain_panics_iff.not.trans not_not
    | parsedPage page =>
      cases parsed : crates.url.parse page.url with
      | error reason =>
        refine iff_of_false (not_not.mpr ?_) ?_
        · simp only [CrawlerStorage.saveParsedData, parsed]
        · rintro ⟨url, same⟩
          cases parsed.symm.trans same
      | ok url =>
        refine iff_of_true ?_ ⟨url, parsed⟩
        cases hosted : crates.url.domain url with
        | none =>
          simp only [CrawlerStorage.saveParsedData, parsed, hosted]
          exact fun panics => by cases panics
        | some host =>
          simp only [CrawlerStorage.saveParsedData, parsed, hosted]
          exact rows.savePageOfDomain host page

end Saves

/-! ### Runs -/

section Runs

variable {storage next : CrawlerStorage Url}

/-- A row that a harmless event writes reads back without a panic: its robots text does not parse,
or its delay converts. -/
theorem cachedRow_of_harmless {db : CrawlerDb} {agent : String} {faults : DbFaults}
    {data : DomainDataSaveData} (old : Option DomainRow) (writes : allFail faults.write = false)
    (harmless : HarmlessEvent crates agent faults (.parsedDomain data)) :
    cachedRow crates agent (db.domainRow data old) ≠ .error .panicked := by
  intro panics
  obtain ⟨⟨robot, parses⟩, inconvertible⟩ := CachedData.new_panics_iff.mp panics
  change parseRobot crates data.robots agent = .ok robot at parses
  change ((boundDelay data.delay).getD 0).toDuration = none at inconvertible
  cases number : data.delay.isNan with
  | true =>
    rw [boundDelay, if_pos number] at inconvertible
    exact absurd inconvertible (by decide +kernel)
  | false =>
    rw [toDuration_boundDelay number] at inconvertible
    rcases harmless with fails | unparsed | converts
    · cases writes.symm.trans fails
    · exact unparsed robot parses
    · exact converts inconvertible

/-- Only a domain event touches the rows of the domains, and only when it is written. -/
theorem Saved.rowsReturn {faults : DbFaults} {data : ParsedData} {result : Outcome (List String)}
    (saved : Saved crates storage faults data result next) (rows : RowsReturn crates storage)
    (harmless : HarmlessEvent crates storage.agentName faults data) :
    RowsReturn crates next := by
  have rewritten : ∀ domainData : DomainDataSaveData, allFail faults.write = false →
      HarmlessEvent crates storage.agentName faults (.parsedDomain domainData) →
      ∀ domain row, (storage.db.upsertDomain domainData).domains.find? domain = some row →
        cachedRow crates storage.agentName row ≠ .error .panicked := by
    intro domainData writes innocent domain row found
    by_cases same : domain = domainData.domainString
    · rw [same, find?_upsertDomain_self] at found
      obtain rfl := Option.some.inj found
      exact cachedRow_of_harmless _ writes innocent
    · rw [find?_upsertDomain_of_ne _ _ same] at found
      exact rows domain row found
  have written : ∀ {domainData : DomainDataSaveData} {id : Int} {db : CrawlerDb},
      storage.db.saveDomain faults domainData = .ok (id, db) → allFail faults.write = false := by
    intro domainData id db stored
    by_contra fails
    rw [saveDomain_eq, if_pos (by simpa using fails)] at stored
    cases stored
  cases saved with
  | domainUncached stored _ => exact rewritten _ (written stored) harmless
  | domainSaved stored _ => exact rewritten _ (written stored) harmless
  | _ => exact rows

theorem entryStep_rowsReturn {action : EntryAction Url}
    (moved : entryStep crates action storage = some next) (rows : RowsReturn crates storage)
    (harmless : HarmlessAction crates storage action) : RowsReturn crates next := by
  cases action with
  | entry faults entry =>
    cases moved
    cases decoded : eventOf crates entry with
    | none =>
      rw [(processStreamEntry_of_eventOf_none decoded storage faults).1]
      exact rows
    | some event =>
      rw [processStreamEntry_of_eventOf decoded]
      exact (saveParsedData_saved crates storage faults event).rowsReturn rows
        (harmless event decoded)
  | lookup request =>
    cases moved
    obtain ⟨_, _, _, state⟩ := afterLookup_state crates storage request
    rw [state]
    exact rows
  | restart faults =>
    have stepped : storageStep crates (.restart faults) storage = some next := moved
    rcases storageStep_cases crates stepped with ⟨_, _, same, _⟩ | rfl | ⟨_, _, _, rfl⟩
    · cases same
    · exact rows
    · exact rows

/-- In every state that harmless entries lead to, with any lookups, evictions and restarts between
them, no lookup panics, and an entry is processed without a panic exactly when it is harmless. -/
theorem processing_returns_iff {userAgent : String}
    (reached : Transition.ReachesWith (entryStep crates) (HarmlessAction crates)
      (CrawlerStorage.started [] CrawlerDb.empty userAgent) storage) :
    LookupsReturn crates storage ∧ ∀ (faults : DbFaults) (entry : StreamEntry),
      (processStreamEntry crates storage faults entry).1 ≠ .error .panicked ↔
        HarmlessEntry crates storage.agentName faults entry := by
  have start : RowsReturn crates
      (CrawlerStorage.started [] CrawlerDb.empty userAgent : CrawlerStorage Url) :=
    fun _ _ found => by cases found
  have rows := reached.invariant start fun _ _ _ rows harmless moved =>
    entryStep_rowsReturn moved rows harmless
  exact ⟨rows.lookups, fun _ entry => rows.process_iff entry⟩

end Runs

/-! ### The sample web -/

/-- The sample web with the JSON of a domain event whose delay is minus one second. -/
def sampleNegativeCrates : Crates SampleUrl :=
  { sampleCrates with
    fromJson := fun payload =>
      if payload = "\x7b\"event_type\":\"ParsedDomain\",\"domain_string\":\"b.example\",\"robots\":null,\"delay\":-1.0\x7d" then
        some (.parsedDomain ⟨"b.example", none, 0xbf800000#32⟩)
      else sampleCrates.fromJson payload }

def sampleNegativeEntry : StreamEntry :=
  some "\x7b\"event_type\":\"ParsedDomain\",\"domain_string\":\"b.example\",\"robots\":null,\"delay\":-1.0\x7d"

/-- A harmless domain event, and what the theorem says in the state after it. -/
theorem processing_returns_iff_sample : ∃ storage : CrawlerStorage SampleUrl,
    entryStep sampleNegativeCrates
      (.entry DbFaults.none (some (sampleNegativeCrates.toJson sampleDomainEvent)))
      (CrawlerStorage.started [] CrawlerDb.empty defaultAgentName) = some storage ∧
    LookupsReturn sampleNegativeCrates storage ∧ ∀ (faults : DbFaults) (entry : StreamEntry),
      (processStreamEntry sampleNegativeCrates storage faults entry).1 ≠ .error .panicked ↔
        HarmlessEntry sampleNegativeCrates storage.agentName faults entry := by
  obtain ⟨storage, moved⟩ : ∃ storage, entryStep sampleNegativeCrates
      (.entry DbFaults.none (some (sampleNegativeCrates.toJson sampleDomainEvent)))
      (CrawlerStorage.started [] CrawlerDb.empty defaultAgentName) = some storage := ⟨_, rfl⟩
  refine ⟨storage, moved, processing_returns_iff (.move .start ?_ moved)⟩
  intro event decoded
  have decodes : eventOf sampleNegativeCrates
      (some (sampleNegativeCrates.toJson sampleDomainEvent)) = some sampleDomainEvent := by
    decide +kernel
  obtain rfl := Option.some.inj (decodes.symm.trans decoded)
  exact Or.inr (Or.inr (by decide +kernel))

/-- The entry with the negative delay kills the consumer of a fresh service, and every later lookup
of the domain panics. -/
theorem negative_delay_kills :
    (processStreamEntry sampleNegativeCrates
      (CrawlerStorage.started [] CrawlerDb.empty defaultAgentName) DbFaults.none
      sampleNegativeEntry).1 = .error .panicked ∧
    ((processStreamEntry sampleNegativeCrates
      (CrawlerStorage.started [] CrawlerDb.empty defaultAgentName) DbFaults.none
      sampleNegativeEntry).2.getDelay sampleNegativeCrates DbFaults.none "b.example").1 =
        .error .panicked := by
  decide +kernel

end PoliteCrawler
