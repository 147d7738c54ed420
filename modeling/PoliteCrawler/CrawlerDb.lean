/-
This file models the SQLite database of the storage service: the tables of
domains and pages, the upserts that write them, and the reads.

A database call makes up to three attempts. Which attempts fail is an input,
`DbFaults`; a failed attempt leaves the tables as they are. The page upsert also
fails when its domain id has no row, since foreign keys are on. The constraints
`create_tables` declares and the numbering of `AUTOINCREMENT` are fields, so a
database that breaks them cannot be built. The column `pages.id` is left out:
nothing reads it.
-/

import PoliteCrawler.Common
import PoliteCrawler.KeyedTable

namespace PoliteCrawler

def maxDbReconnects : Nat := 3

/-- Which attempts of the database calls fail. -/
structure DbFaults where
  read : Nat → Bool
  write : Nat → Bool

/-- No attempt fails. -/
def DbFaults.none : DbFaults := ⟨fun _ => false, fun _ => false⟩

/-- One query with its attempts. -/
def queryWithRetry {Value : Type} (fails : Nat → Bool) (query : Outcome Value) : Outcome Value :=
  withRetry maxDbReconnects fun attempt =>
    if fails attempt then .error (.error .dbError) else query

theorem queryWithRetry_ok {Value : Type} {fails : Nat → Bool} {query : Outcome Value}
    {value : Value} (done : queryWithRetry fails query = .ok value) : query = .ok value := by
  obtain ⟨attempt, succeeded⟩ := withRetry_ok done
  split at succeeded
  · cases succeeded
  · exact succeeded

@[simp] theorem queryWithRetry_none {Value : Type} (value : Value) :
    queryWithRetry (fun _ => false) (.ok value) = .ok value :=
  withRetry_of_first rfl

/-- All attempts of a query fail. -/
def allFail (fails : Nat → Bool) : Bool := fails 1 && fails 2 && fails 3

/-- A query whose attempts do not all fail returns. -/
theorem queryWithRetry_value {Value : Type} (fails : Nat → Bool) (value : Value) :
    queryWithRetry fails (.ok value) =
      if allFail fails then .error (.error .dbError) else .ok value := by
  cases first : fails 1 <;> cases second : fails 2 <;> cases third : fails 3 <;>
    simp [queryWithRetry, withRetry, retryFrom, maxDbReconnects, allFail, first, second, third]

/-! ### Cached data -/

/-- What the service keeps of a domain. -/
structure CachedData where
  id : Int
  robot : Option Robot
  delay : Duration

section CachedData

variable {Url : Type} (crates : Crates Url)

/-- The robots text, parsed when there is one. -/
def parseRobot (robot : Option String) (agent : String) : Outcome (Option Robot) :=
  match robot with
  | some body =>
    match crates.robotNew agent body with
    | some robotMatcher => .ok (some robotMatcher)
    | none => .error (.error .robotParseError)
  | none => .ok none

/-- `Duration::from_secs_f32(delay)` is evaluated last and panics where it does not convert. -/
def CachedData.new (id : Int) (robot : Option String) (delay : F32) (agent : String) :
    Outcome CachedData :=
  match parseRobot crates robot agent with
  | .error abort => .error abort
  | .ok robot =>
    match delay.toDuration with
    | some duration => .ok { id, robot, delay := duration }
    | none => .error .panicked

theorem CachedData.new_id {id : Int} {robot : Option String} {delay : F32} {agent : String}
    {data : CachedData} (built : CachedData.new crates id robot delay agent = .ok data) :
    data.id = id := by
  unfold CachedData.new at built
  split at built
  · cases built
  · split at built
    · cases built
      rfl
    · cases built

/-- Only a delay that converts gives an entry. -/
theorem CachedData.new_delay {id : Int} {robot : Option String} {delay : F32} {agent : String}
    {data : CachedData} (built : CachedData.new crates id robot delay agent = .ok data) :
    delay.toDuration = some data.delay := by
  unfold CachedData.new at built
  split at built
  · cases built
  · split at built
    · rename_i converted
      cases built
      exact converted
    · cases built

/-- Of the delay only what it converts to counts. -/
theorem CachedData.new_congr {id : Int} {robot : Option String} {first second : F32}
    {agent : String} (same : first.toDuration = second.toDuration) :
    CachedData.new crates id robot first agent = CachedData.new crates id robot second agent := by
  rw [CachedData.new, CachedData.new, same]

/-- The robots text parses and the delay converts. -/
def Convertible (agent : String) (data : DomainDataSaveData) : Prop :=
  (∃ robot, parseRobot crates data.robots agent = .ok robot) ∧ data.delay.toDuration ≠ none

/-- An entry is built exactly from convertible data. -/
theorem CachedData.new_ok_iff {id : Int} {data : DomainDataSaveData} {agent : String} :
    (∃ entry, CachedData.new crates id data.robots data.delay agent = .ok entry) ↔
      Convertible crates agent data := by
  unfold CachedData.new Convertible
  cases parseRobot crates data.robots agent with
  | error abort => simp
  | ok robot => cases data.delay.toDuration <;> simp

end CachedData

/-! ### The tables -/

/-- A row of `domains`. A NaN delay is bound as NULL. -/
structure DomainRow where
  domId : Int
  domainString : String
  delay : Option F32
  allowedUrls : Option String
  deriving DecidableEq, Repr

/-- A row of `pages`. -/
structure PageRow where
  domId : Int
  url : String
  title : Option String
  description : Option String
  cleanText : Option String
  hash : Option Int
  deriving DecidableEq, Repr

/-- The hash of a row as an unsigned integer. -/
def PageRow.simhash (row : PageRow) : Option (BitVec 64) := row.hash.map (BitVec.ofInt 64)

/-- The database. `lastDomId` is the number `AUTOINCREMENT` used up last. -/
structure CrawlerDb where
  domains : KeyedTable DomainRow String DomainRow.domainString
  pages : KeyedTable PageRow String PageRow.url
  lastDomId : Int
  domId_le : ∀ row ∈ domains.rows, row.domId ≤ lastDomId
  domId_unique : (domains.rows.map DomainRow.domId).Nodup

namespace CrawlerDb

/-- The tables have the same rows. The numbers that `AUTOINCREMENT` has used up may differ. -/
structure SameTables (first second : CrawlerDb) : Prop where
  domains : first.domains = second.domains
  pages : first.pages = second.pages

theorem SameTables.refl (db : CrawlerDb) : SameTables db db := ⟨rfl, rfl⟩

/-- A database without rows. -/
def empty : CrawlerDb where
  domains := KeyedTable.empty
  pages := KeyedTable.empty
  lastDomId := 0
  domId_le _ member := absurd member List.not_mem_nil
  domId_unique := List.nodup_nil

/-! ### Saving pages -/

/-- The content a page upsert writes. The hash is stored as a signed integer. -/
def pageRow (domId : Int) (page : ParsedPageSaveData) (hash : Option (BitVec 64)) : PageRow where
  domId := domId
  url := page.url
  title := page.title
  description := page.description
  cleanText := page.cleanText
  hash := hash.map BitVec.toInt

/-- `INSERT INTO pages .. ON CONFLICT(url) DO UPDATE SET ..`, which sets every column. -/
def upsertPage (db : CrawlerDb) (row : PageRow) : CrawlerDb :=
  { db with pages := db.pages.upsert row.url (fun _ => row) fun _ => rfl }

def saveParsedPage (db : CrawlerDb) (faults : DbFaults) (domId : Int) (page : ParsedPageSaveData)
    (hash : Option (BitVec 64)) : Outcome CrawlerDb :=
  queryWithRetry faults.write
    (if domId ∈ db.domains.rows.map DomainRow.domId then .ok (db.upsertPage (pageRow domId page hash))
    else .error (.error .dbError))

/-- A page save that returns has written the page's row and nothing else. -/
theorem saveParsedPage_ok {db next : CrawlerDb} {faults : DbFaults} {domId : Int}
    {page : ParsedPageSaveData} {hash : Option (BitVec 64)}
    (saved : db.saveParsedPage faults domId page hash = .ok next) :
    next = db.upsertPage (pageRow domId page hash) := by
  have written := queryWithRetry_ok saved
  split at written
  · exact (Except.ok.inj written).symm
  · cases written

/-- A page of a stored domain is written unless all attempts fail. -/
theorem saveParsedPage_stored {db : CrawlerDb} {domId : Int}
    (stored : domId ∈ db.domains.rows.map DomainRow.domId) (faults : DbFaults)
    (page : ParsedPageSaveData) (hash : Option (BitVec 64)) :
    db.saveParsedPage faults domId page hash =
      if allFail faults.write then .error (.error .dbError)
      else .ok (db.upsertPage (pageRow domId page hash)) := by
  rw [saveParsedPage, if_pos stored, queryWithRetry_value]

theorem not_allFail_of_saveParsedPage {db next : CrawlerDb} {domId : Int} {faults : DbFaults}
    {page : ParsedPageSaveData} {hash : Option (BitVec 64)}
    (stored : domId ∈ db.domains.rows.map DomainRow.domId)
    (saved : db.saveParsedPage faults domId page hash = .ok next) :
    allFail faults.write = false := by
  by_contra fails
  rw [saveParsedPage_stored stored, if_pos (by simpa using fails)] at saved
  cases saved

theorem allFail_of_saveParsedPage {db : CrawlerDb} {domId : Int} {faults : DbFaults}
    {page : ParsedPageSaveData} {hash : Option (BitVec 64)} {abort : Abort}
    (stored : domId ∈ db.domains.rows.map DomainRow.domId)
    (failed : db.saveParsedPage faults domId page hash = .error abort) :
    allFail faults.write = true := by
  by_contra succeeds
  rw [saveParsedPage_stored stored, if_neg succeeds] at failed
  cases failed

@[simp] theorem upsertPage_domains (db : CrawlerDb) (row : PageRow) :
    (db.upsertPage row).domains = db.domains := rfl

theorem mem_upsertPage (db : CrawlerDb) (row : PageRow) {other : PageRow} :
    other ∈ (db.upsertPage row).pages.rows ↔
      other = row ∨ (other ∈ db.pages.rows ∧ other.url ≠ row.url) :=
  db.pages.mem_upsert row.url (fun _ => row) fun _ => rfl

/-- Writing a page that is already there changes nothing. -/
theorem upsertPage_eq_self {db : CrawlerDb} {row : PageRow}
    (stored : db.pages.find? row.url = some row) : db.upsertPage row = db := by
  have pages := db.pages.upsert_eq_self row.url (fun _ => row) (fun _ => rfl) stored rfl
  simp only [upsertPage, pages]

/-! ### Saving domains -/

/-- The sign bit alone: minus zero. -/
def negativeZero : F32 := 0x80000000#32

/-- The delay column after binding an `f32`: NaN is NULL, and zero has no sign. -/
def boundDelay (delay : F32) : Option F32 :=
  if delay.isNan then none else if delay = negativeZero then some 0 else some delay

/-- A column that is not NULL converts like the number that was bound. -/
theorem toDuration_boundDelay {delay : F32} (number : delay.isNan = false) :
    ((boundDelay delay).getD 0).toDuration = delay.toDuration := by
  rw [boundDelay, if_neg (Bool.eq_false_iff.mp number)]
  by_cases negative : delay = negativeZero
  · subst negative
    decide +kernel
  · rw [if_neg negative]
    rfl

/-- The row a domain upsert writes: a known domain keeps its id, a new one gets the next. -/
def domainRow (db : CrawlerDb) (data : DomainDataSaveData) (old : Option DomainRow) :
    DomainRow where
  domId := (old.map DomainRow.domId).getD (db.lastDomId + 1)
  domainString := data.domainString
  delay := boundDelay data.delay
  allowedUrls := data.robots

/-- `INSERT INTO domains .. ON CONFLICT(domain_string) DO UPDATE SET ..`. The insert uses up the next
number even where it ends as an update. -/
def upsertDomain (db : CrawlerDb) (data : DomainDataSaveData) : CrawlerDb where
  domains := db.domains.upsert data.domainString (db.domainRow data) fun _ => rfl
  pages := db.pages
  lastDomId := db.lastDomId + 1
  domId_le row member := by
    have older : ∀ old ∈ db.domains.rows, old.domId ≤ db.lastDomId + 1 := fun old stored =>
      (db.domId_le old stored).trans (Int.le.intro 1 rfl)
    rcases (db.domains.mem_upsert _ _ _).mp member with rfl | ⟨old, _⟩
    · cases found : db.domains.find? data.domainString with
      | some row => exact older row (db.domains.find?_eq_some_iff.mp found).1
      | none => exact le_refl (db.lastDomId + 1)
    · exact older row old
  domId_unique := by
    show ((db.domains.upsertedRows data.domainString (db.domainRow data)).map
      DomainRow.domId).Nodup
    unfold KeyedTable.upsertedRows
    cases found : db.domains.find? data.domainString with
    | some _ =>
      have ids : (db.domains.rows.map fun row => if row.domainString = data.domainString then
          db.domainRow data (some row) else row).map DomainRow.domId =
          db.domains.rows.map DomainRow.domId := by
        rw [List.map_map]
        refine List.map_congr_left fun row _ => ?_
        rw [Function.comp_apply]
        split <;> rfl
      simp only [ids]
      exact db.domId_unique
    | none =>
      simp only [List.map_append, List.nodup_append]
      refine ⟨db.domId_unique, List.nodup_singleton _, ?_⟩
      intro first memberFirst second memberSecond same
      obtain ⟨row, member, rfl⟩ := List.mem_map.mp memberFirst
      have bound := db.domId_le row member
      rw [List.map_singleton, List.mem_singleton] at memberSecond
      have next : second = db.lastDomId + 1 := memberSecond
      omega

/-- Returns the id of the written row. -/
def saveDomain (db : CrawlerDb) (faults : DbFaults) (data : DomainDataSaveData) :
    Outcome (Int × CrawlerDb) :=
  queryWithRetry faults.write
    (.ok ((db.domainRow data (db.domains.find? data.domainString)).domId, db.upsertDomain data))

theorem saveDomain_eq (db : CrawlerDb) (faults : DbFaults) (data : DomainDataSaveData) :
    db.saveDomain faults data = if allFail faults.write then .error (.error .dbError)
      else .ok ((db.domainRow data (db.domains.find? data.domainString)).domId,
        db.upsertDomain data) :=
  queryWithRetry_value _ _

theorem saveDomain_ok {db next : CrawlerDb} {faults : DbFaults} {data : DomainDataSaveData}
    {id : Int} (saved : db.saveDomain faults data = .ok (id, next)) :
    id = (db.domainRow data (db.domains.find? data.domainString)).domId ∧
      next = db.upsertDomain data := by
  have written := queryWithRetry_ok saved
  cases written
  exact ⟨rfl, rfl⟩

@[simp] theorem upsertDomain_pages (db : CrawlerDb) (data : DomainDataSaveData) :
    (db.upsertDomain data).pages = db.pages := rfl

theorem find?_upsertDomain_self (db : CrawlerDb) (data : DomainDataSaveData) :
    (db.upsertDomain data).domains.find? data.domainString =
      some (db.domainRow data (db.domains.find? data.domainString)) :=
  db.domains.find?_upsert_self data.domainString (db.domainRow data) fun _ => rfl

theorem find?_upsertDomain_of_ne (db : CrawlerDb) (data : DomainDataSaveData) {domain : String}
    (different : domain ≠ data.domainString) :
    (db.upsertDomain data).domains.find? domain = db.domains.find? domain :=
  db.domains.find?_upsert_of_ne data.domainString (db.domainRow data) (fun _ => rfl) different

/-- Writing a row that is already there leaves the table as it is. -/
theorem upsertDomain_domains_eq_self {db : CrawlerDb} {data : DomainDataSaveData}
    (present : db.domains.find? data.domainString =
      some (db.domainRow data (db.domains.find? data.domainString))) :
    (db.upsertDomain data).domains = db.domains := by
  obtain ⟨row, found⟩ : ∃ row, db.domains.find? data.domainString = some row := ⟨_, present⟩
  rw [found] at present
  have same : db.domainRow data (some row) = row := (Option.some.inj present).symm
  exact db.domains.upsert_eq_self data.domainString (db.domainRow data) (fun _ => rfl) found same

/-- The row of a domain is written the same a second time. -/
theorem domainRow_upsertDomain (db : CrawlerDb) (data : DomainDataSaveData) :
    (db.upsertDomain data).domainRow data
        ((db.upsertDomain data).domains.find? data.domainString) =
      db.domainRow data (db.domains.find? data.domainString) := by
  rw [find?_upsertDomain_self]
  rfl

/-- Writing the row of a domain a second time leaves the tables as they are. -/
theorem upsertDomain_again (db : CrawlerDb) (data : DomainDataSaveData) :
    SameTables ((db.upsertDomain data).upsertDomain data) (db.upsertDomain data) where
  domains := upsertDomain_domains_eq_self (by
    rw [domainRow_upsertDomain, find?_upsertDomain_self])
  pages := rfl

/-! ### Reads -/

section Reads

variable {Url : Type} (crates : Crates Url)

/-- What a row of `domains` reads back as. A NULL delay is decoded as zero. -/
def cachedRow (agent : String) (row : DomainRow) : Outcome CachedData :=
  CachedData.new crates row.domId row.allowedUrls (row.delay.getD 0) agent

def getCacheInfoAboutDomain (db : CrawlerDb) (faults : DbFaults) (domain agent : String) :
    Outcome (Option CachedData) :=
  match queryWithRetry faults.read (.ok (db.domains.find? domain)) with
  | .error abort => .error abort
  | .ok none => .ok none
  | .ok (some row) => (cachedRow crates agent row).map some

/-- A read that succeeds returns what one without failing attempts returns. -/
theorem getCacheInfo_faultless {db : CrawlerDb} {faults : DbFaults} {domain agent : String}
    {data : Option CachedData}
    (read : db.getCacheInfoAboutDomain crates faults domain agent = .ok data) :
    db.getCacheInfoAboutDomain crates DbFaults.none domain agent = .ok data := by
  have faultless : queryWithRetry DbFaults.none.read (.ok (db.domains.find? domain)) =
      .ok (db.domains.find? domain) := queryWithRetry_none _
  unfold getCacheInfoAboutDomain at read
  rw [getCacheInfoAboutDomain, faultless]
  cases queried : queryWithRetry faults.read (.ok (db.domains.find? domain)) with
  | error abort =>
    rw [queried] at read
    cases read
  | ok row =>
    rw [queried] at read
    rw [Except.ok.inj (queryWithRetry_ok queried)]
    exact read

/-- A read that returns an entry read it off the domain's row. -/
theorem getCacheInfo_some {db : CrawlerDb} {faults : DbFaults} {domain agent : String}
    {data : CachedData}
    (read : db.getCacheInfoAboutDomain crates faults domain agent = .ok (some data)) :
    ∃ row, db.domains.find? domain = some row ∧ cachedRow crates agent row = .ok data := by
  unfold getCacheInfoAboutDomain at read
  split at read
  · cases read
  · cases read
  · rename_i row queried
    refine ⟨row, Except.ok.inj (queryWithRetry_ok queried), ?_⟩
    cases built : cachedRow crates agent row with
    | error abort => simp [built, Except.map] at read
    | ok entry =>
      simp only [built, Except.map, Except.ok.injEq, Option.some.injEq] at read
      rw [read]

theorem getCacheInfo_none {db : CrawlerDb} {faults : DbFaults} {domain agent : String}
    (read : db.getCacheInfoAboutDomain crates faults domain agent = .ok none) :
    db.domains.find? domain = none := by
  unfold getCacheInfoAboutDomain at read
  split at read
  · cases read
  · rename_i queried
    exact Except.ok.inj (queryWithRetry_ok queried)
  · rename_i row queried
    cases built : cachedRow crates agent row <;> simp [built, Except.map] at read

theorem cachedRow_id {agent : String} {row : DomainRow} {data : CachedData}
    (built : cachedRow crates agent row = .ok data) : data.id = row.domId :=
  CachedData.new_id crates built

/-- A row written from convertible data reads back as the entry built from the data. -/
theorem cachedRow_domainRow (db : CrawlerDb) (data : DomainDataSaveData) (old : Option DomainRow)
    (agent : String) {entry : CachedData}
    (built : CachedData.new crates (db.domainRow data old).domId data.robots data.delay agent =
      .ok entry) : cachedRow crates agent (db.domainRow data old) = .ok entry := by
  have number : data.delay.isNan = false := by
    by_contra nan
    have missing := F32.toDuration_of_isNan (by simpa using nan)
    rw [CachedData.new_delay crates built] at missing
    cases missing
  have column : ((db.domainRow data old).delay.getD 0).toDuration = data.delay.toDuration :=
    toDuration_boundDelay number
  exact (CachedData.new_congr crates column).trans built

end Reads

/-- `SELECT hash FROM pages WHERE hash IS NOT NULL`, cast back to unsigned. -/
def simhashes (db : CrawlerDb) : List (BitVec 64) :=
  (db.pages.rows.filterMap PageRow.hash).map (BitVec.ofInt 64)

def getSimhashes (db : CrawlerDb) (faults : DbFaults) : Outcome (List (BitVec 64)) :=
  queryWithRetry faults.read (.ok db.simhashes)

theorem mem_simhashes {db : CrawlerDb} {hash : BitVec 64} :
    hash ∈ db.simhashes ↔ ∃ row ∈ db.pages.rows, row.simhash = some hash := by
  simp only [simhashes, List.mem_map, List.mem_filterMap, PageRow.simhash, Option.map_eq_some_iff]
  constructor
  · rintro ⟨stored, ⟨row, member, column⟩, cast⟩
    exact ⟨row, member, stored, column, cast⟩
  · rintro ⟨row, member, stored, column, cast⟩
    exact ⟨stored, ⟨row, member, column⟩, cast⟩

/-- The cast to a signed integer and back loses nothing. -/
@[simp] theorem simhash_pageRow (domId : Int) (page : ParsedPageSaveData)
    (hash : Option (BitVec 64)) : (pageRow domId page hash).simhash = hash := by
  cases hash with
  | none => rfl
  | some hash => exact congrArg some BitVec.ofInt_toInt

@[simp] theorem url_pageRow (domId : Int) (page : ParsedPageSaveData)
    (hash : Option (BitVec 64)) : (pageRow domId page hash).url = page.url := rfl

/-- The hashes after a page upsert: the written one, and those of the other URLs. -/
theorem mem_simhashes_upsertPage {db : CrawlerDb} {domId : Int} {page : ParsedPageSaveData}
    {written : Option (BitVec 64)} {hash : BitVec 64} :
    hash ∈ (db.upsertPage (pageRow domId page written)).simhashes ↔
      written = some hash ∨
        ∃ row ∈ db.pages.rows, row.url ≠ page.url ∧ row.simhash = some hash := by
  rw [mem_simhashes]
  constructor
  · rintro ⟨row, member, column⟩
    rcases (mem_upsertPage db _).mp member with rfl | ⟨old, different⟩
    · exact Or.inl ((simhash_pageRow domId page written).symm.trans column)
    · exact Or.inr ⟨row, old, different, column⟩
  · rintro (rfl | ⟨row, member, different, column⟩)
    · exact ⟨_, (mem_upsertPage db _).mpr (Or.inl rfl), simhash_pageRow domId page _⟩
    · exact ⟨row, (mem_upsertPage db _).mpr (Or.inr ⟨member, different⟩), column⟩

/-- A database that knows the first site of the sample web. -/
def sample : CrawlerDb :=
  empty.upsertDomain { domainString := "a.example", robots := none, delay := 0x3f800000#32 }

end CrawlerDb

end PoliteCrawler
