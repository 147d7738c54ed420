/-
This file says when the access check decides on the whole request target.

A rule is matched against the path together with the query. The check passes the
path alone, so a rule about a query never matches, and one that ends a path
matches whatever the query is. The answer is right exactly where the rules do not
tell the two apart.
-/

import PoliteCrawler.StorageRuns

namespace PoliteCrawler

open CrawlerDb

variable {Url : Type} (crates : Crates Url)

/-! ### What the answer is to be -/

/-- The path, and the query after a question mark. `query` is `Url::query`. -/
def requestTarget (query : Url → Option String) (url : Url) : String :=
  crates.url.path url ++ ((query url).map fun text => "?" ++ text).getD ""

/-- What the stores hold of a domain: nothing, a domain without a robots text, or one with a text
and the rules it parses to. -/
inductive DomainRobots
  | unknown
  | absent
  | text (rules : Option Robot)

def CachedData.robots (entry : CachedData) : DomainRobots :=
  match entry.robot with
  | none => .absent
  | some robot => .text (some robot)

def DomainRow.robots (agent : String) (row : DomainRow) : DomainRobots :=
  match row.allowedUrls with
  | none => .absent
  | some body => .text (crates.robotNew agent body)

/-- The cache is asked before the table. -/
def CrawlerStorage.robotsOf (storage : CrawlerStorage Url) (domain : String) : DomainRobots :=
  match storage.domainCache.cache domain with
  | some entry => entry.robots
  | none =>
    match storage.db.domains.find? domain with
    | none => .unknown
    | some row => row.robots crates storage.agentName

/-- What the rules of the domain, when there are any, say of a target. -/
def DomainRobots.allows (target : String) : DomainRobots → Option Bool
  | .text (some rules) => some (rules.allowed target)
  | _ => none

theorem DomainRobots.allows_eq_some {robots : DomainRobots} {target : String} {answer : Bool}
    (allows : robots.allows target = some answer) :
    ∃ rules, robots = .text (some rules) ∧ rules.allowed target = answer := by
  unfold DomainRobots.allows at allows
  split at allows
  · exact ⟨_, rfl, Option.some.inj allows⟩
  · cases allows

/-- The answer that the rules of a domain ask for. -/
structure Decides (robots : DomainRobots) (target : String) (answer : Outcome UrlAccess) :
    Prop where
  unknown : answer = .ok .unknownDomain ↔ robots = .unknown
  allowed : robots ≠ .unknown → (answer = .ok .allowed ↔ robots = .absent ∨
    ∃ rules, robots = .text (some rules) ∧ rules.allowed target = true)
  disallowed : robots ≠ .unknown → (answer = .ok .disallowed ↔
    ∃ rules, robots = .text (some rules) ∧ rules.allowed target = false)

/-- The rules give the same answer for the path and for the target. -/
def AgreesOn (robots : DomainRobots) (path target : String) : Prop :=
  ∀ rules, robots = .text (some rules) → rules.allowed path = rules.allowed target

/-- A domain that is read off the table has a delay that converts (NULL is read as zero), unless its
robots text does not parse. -/
def CrawlerStorage.Readable (storage : CrawlerStorage Url) (domain : String) : Prop :=
  storage.domainCache.cache domain = none → ∀ row, storage.db.domains.find? domain = some row →
    storage.robotsOf crates domain = .text none ∨ (row.delay.getD 0).toDuration ≠ none

/-! ### The cases of an answer -/

section Cases

variable {path target : String}

theorem decides_error (robots : DomainRobots) (target : String) (abort : Abort) :
    Decides robots target (.error abort) ↔ robots = .text none := by
  constructor
  · intro decides
    have known : robots ≠ .unknown := fun same => by cases decides.unknown.mpr same
    cases robots with
    | unknown => exact absurd rfl known
    | absent => cases (decides.allowed known).mpr (Or.inl rfl)
    | text rules =>
      cases rules with
      | none => rfl
      | some rules =>
        cases allows : rules.allowed target with
        | true => cases (decides.allowed known).mpr (Or.inr ⟨rules, rfl, allows⟩)
        | false => cases (decides.disallowed known).mpr ⟨rules, rfl, allows⟩
  · rintro rfl
    refine ⟨⟨nofun, nofun⟩, fun _ => ⟨nofun, ?_⟩, fun _ => ⟨nofun, ?_⟩⟩
    · rintro (same | ⟨rules, same, _⟩) <;> cases same
    · rintro ⟨rules, same, _⟩
      cases same

theorem decides_unknown (target : String) : Decides .unknown target (.ok .unknownDomain) :=
  ⟨⟨fun _ => rfl, fun _ => rfl⟩, fun known => absurd rfl known, fun known => absurd rfl known⟩

theorem decides_absent (target : String) : Decides .absent target (.ok .allowed) := by
  refine ⟨⟨nofun, nofun⟩, fun _ => ⟨fun _ => Or.inl rfl, fun _ => rfl⟩, fun _ => ⟨nofun, ?_⟩⟩
  rintro ⟨rules, same, _⟩
  cases same

/-- An answer that was decided on the path is right when the rules agree on the target. -/
theorem decides_rules (rules : Robot) : Decides (.text (some rules)) target
    (.ok (if rules.allowed path then .allowed else .disallowed)) ↔
      rules.allowed path = rules.allowed target := by
  have known : DomainRobots.text (some rules) ≠ .unknown := nofun
  have only : ∀ allows : Bool, (∃ other, DomainRobots.text (some rules) = .text (some other) ∧
      other.allowed target = allows) ↔ rules.allowed target = allows := by
    intro allows
    constructor
    · rintro ⟨other, same, answer⟩
      cases same
      exact answer
    · exact fun answer => ⟨rules, rfl, answer⟩
  constructor
  · intro decides
    cases answer : rules.allowed path with
    | true =>
      rw [answer] at decides
      exact ((only true).mp (((decides.allowed known).mp rfl).resolve_left nofun)).symm
    | false =>
      rw [answer] at decides
      exact ((only false).mp ((decides.disallowed known).mp rfl)).symm
  · intro agrees
    rw [agrees]
    cases answer : rules.allowed target with
    | true =>
      refine ⟨⟨nofun, nofun⟩, fun _ => ⟨fun _ => Or.inr ((only true).mpr answer), fun _ => rfl⟩,
        fun _ => ⟨nofun, fun refused => ?_⟩⟩
      cases answer.symm.trans ((only false).mp refused)
    | false =>
      refine ⟨⟨nofun, nofun⟩, fun _ => ⟨nofun, fun allowed => ?_⟩,
        fun _ => ⟨fun _ => (only false).mpr answer, fun _ => rfl⟩⟩
      cases answer.symm.trans ((only true).mp (allowed.resolve_left nofun))

/-- The rules of an entry decide on the path. -/
theorem decides_entry (entry : CachedData) :
    Decides entry.robots target (.ok (CrawlerStorage.accessOf path (some entry))) ↔
      AgreesOn entry.robots path target := by
  cases robot : entry.robot with
  | none =>
    simp only [CachedData.robots, CrawlerStorage.accessOf, robot]
    exact iff_of_true (decides_absent target) fun rules same => by cases same
  | some rules =>
    simp only [CachedData.robots, CrawlerStorage.accessOf, robot]
    refine (decides_rules rules).trans ⟨fun agrees other same => ?_, fun agrees => agrees rules rfl⟩
    cases same
    exact agrees

end Cases

/-! ### The check -/

/-- The robots text of a row parses to its rules, or does not parse. -/
theorem parseRobot_cases (agent : String) (row : DomainRow) :
    (∃ robot, parseRobot crates row.allowedUrls agent = .ok robot ∧
        ∀ id delay, row.robots crates agent = CachedData.robots ⟨id, robot, delay⟩) ∨
      ∃ abort, parseRobot crates row.allowedUrls agent = .error abort ∧
        row.robots crates agent = .text none := by
  cases text : row.allowedUrls with
  | none => exact Or.inl ⟨none, rfl, fun _ _ => by simp only [DomainRow.robots, text]; rfl⟩
  | some body =>
    cases parsed : crates.robotNew agent body with
    | none =>
      exact Or.inr ⟨.error .robotParseError, by simp only [parseRobot, parsed],
        by simp only [DomainRow.robots, text, parsed]⟩
    | some robot =>
      refine Or.inl ⟨some robot, by simp only [parseRobot, parsed], fun _ _ => ?_⟩
      simp only [DomainRow.robots, text, parsed]
      rfl

/-- A row reads back, and keeps its robots, unless its robots text does not parse or its delay does
not convert. -/
theorem cachedRow_cases (agent : String) (row : DomainRow) :
    (∃ entry, cachedRow crates agent row = .ok entry ∧ row.robots crates agent = entry.robots ∧
        (row.delay.getD 0).toDuration ≠ none) ∨
      ∃ abort, cachedRow crates agent row = .error abort ∧
        (row.robots crates agent = .text none ∨ (row.delay.getD 0).toDuration = none) := by
  rcases parseRobot_cases crates agent row with ⟨robot, parsed, same⟩ | ⟨abort, failed, unparsed⟩
  · cases converts : (row.delay.getD 0).toDuration with
    | none =>
      exact Or.inr ⟨.panicked, by simp only [cachedRow, CachedData.new, parsed, converts],
        Or.inr rfl⟩
    | some duration =>
      exact Or.inl ⟨⟨row.domId, robot, duration⟩,
        by simp only [cachedRow, CachedData.new, parsed, converts], same _ _,
        Option.some_ne_none _⟩
  · exact Or.inr ⟨abort, by simp only [cachedRow, CachedData.new, failed], Or.inl unparsed⟩

section Check

variable {crates} {storage : CrawlerStorage Url} {faults : DbFaults} {domain : String}

/-- A domain that is not cached is read off the table, when the read does not fail. -/
theorem cachedOrStored_uncached (reads : allFail faults.read = false)
    (uncached : storage.domainCache.cache domain = none) :
    (storage.cachedOrStored crates faults domain).1 =
      match storage.db.domains.find? domain with
      | none => .ok none
      | some row => (cachedRow crates storage.agentName row).map some := by
  unfold CrawlerStorage.cachedOrStored DomainCache.getCachedDomain getCacheInfoAboutDomain
  rw [queryWithRetry_value, reads, if_neg Bool.false_ne_true, uncached]
  cases storage.db.domains.find? domain with
  | none => rfl
  | some row => cases built : cachedRow crates storage.agentName row <;> simp [built, Except.map]

/-- The check of a URL with a domain is decided on its request target exactly when the rules of the
domain agree on the path and the target, and the domain can be read. -/
theorem check_decides_iff (query : Url → Option String) {url : Url}
    (hosted : crates.url.domain url = some domain) (reads : allFail faults.read = false) :
    Decides (storage.robotsOf crates domain) (requestTarget crates query url)
        (storage.checkIfUrlAllowed crates faults url).1 ↔
      AgreesOn (storage.robotsOf crates domain) (crates.url.path url)
          (requestTarget crates query url) ∧
        storage.Readable crates domain := by
  have answer : (storage.checkIfUrlAllowed crates faults url).1 =
      (storage.cachedOrStored crates faults domain).1.map
        (CrawlerStorage.accessOf (crates.url.path url)) := by
    simp only [CrawlerStorage.checkIfUrlAllowed, hosted]
  rw [answer]
  unfold CrawlerStorage.Readable
  cases cached : storage.domainCache.cache domain with
  | some entry =>
    have looked : (storage.cachedOrStored crates faults domain).1 = .ok (some entry) := by
      simp only [CrawlerStorage.cachedOrStored, DomainCache.getCachedDomain, cached]
    have robots : storage.robotsOf crates domain = entry.robots := by
      simp only [CrawlerStorage.robotsOf, cached]
    rw [looked, robots]
    exact (decides_entry entry).trans ⟨fun agrees => ⟨agrees, fun none => by cases none⟩, And.left⟩
  | none =>
    rw [cachedOrStored_uncached reads cached]
    cases stored : storage.db.domains.find? domain with
    | none =>
      have robots : storage.robotsOf crates domain = .unknown := by
        simp only [CrawlerStorage.robotsOf, cached, stored]
      rw [robots]
      refine iff_of_true (decides_unknown _) ⟨?_, ?_⟩
      · intro rules text
        cases text
      · intro _ row found
        cases found
    | some row =>
      have robots : storage.robotsOf crates domain = row.robots crates storage.agentName := by
        simp only [CrawlerStorage.robotsOf, cached, stored]
      rw [robots]
      rcases cachedRow_cases crates storage.agentName row with
        ⟨entry, built, same, converts⟩ | ⟨abort, unread, why⟩
      · simp only [built, same]
        refine (decides_entry entry).trans ⟨fun agrees => ⟨agrees, fun _ other found => ?_⟩,
          And.left⟩
        obtain rfl := Option.some.inj found
        exact Or.inr converts
      · simp only [unread]
        refine (decides_error _ _ abort).trans ⟨fun unparsed => ?_, fun decided => ?_⟩
        · refine ⟨fun rules same => ?_, fun _ _ _ => Or.inl unparsed⟩
          cases unparsed.symm.trans same
        · exact (decided.2 trivial row rfl).elim id fun converts => why.resolve_right converts

end Check

/-! ### The small site -/

/-- The domain event of the small site, whose rules forbid sorted lists. -/
def sampleSortEvent : ParsedData :=
  .parsedDomain ⟨"a.example", some "User-agent: *\nDisallow: /*?sort=", 0⟩

/-- The storage after the event. -/
def sampleSortStorage : CrawlerStorage SampleLink :=
  (CrawlerStorage.saveParsedData sampleLinkCrates
    (CrawlerStorage.started [] CrawlerDb.empty "EDUCATIONAL_CRAWLER") DbFaults.none
    sampleSortEvent).2

/-- The plain list, which the rules allow. -/
theorem check_decides_iff_sample :
    Decides (sampleSortStorage.robotsOf sampleLinkCrates "a.example")
        (requestTarget sampleLinkCrates SampleLink.query .list)
        (sampleSortStorage.checkIfUrlAllowed sampleLinkCrates DbFaults.none .list).1 ↔
      AgreesOn (sampleSortStorage.robotsOf sampleLinkCrates "a.example")
          (sampleLinkCrates.url.path .list)
          (requestTarget sampleLinkCrates SampleLink.query .list) ∧
        sampleSortStorage.Readable sampleLinkCrates "a.example" :=
  check_decides_iff SampleLink.query rfl rfl

/-- The rules forbid the sorted list, and the check allows it. -/
theorem sorted_list_allowed : ∃ storage : CrawlerStorage SampleLink,
    Transition.Reaches (storageStep sampleLinkCrates)
        (CrawlerStorage.started [] CrawlerDb.empty "EDUCATIONAL_CRAWLER") storage ∧
      (storage.checkIfUrlAllowed sampleLinkCrates DbFaults.none .sorted).1 = .ok .allowed ∧
      ¬ Decides (storage.robotsOf sampleLinkCrates "a.example")
        (requestTarget sampleLinkCrates SampleLink.query .sorted)
        (storage.checkIfUrlAllowed sampleLinkCrates DbFaults.none .sorted).1 := by
  have allowed : (sampleSortStorage.checkIfUrlAllowed sampleLinkCrates DbFaults.none .sorted).1 =
      .ok .allowed := by decide +kernel
  have forbids : (sampleSortStorage.robotsOf sampleLinkCrates "a.example").allows
      (requestTarget sampleLinkCrates SampleLink.query .sorted) = some false := by decide +kernel
  have step : storageStep sampleLinkCrates (.save sampleSortEvent DbFaults.none)
      (CrawlerStorage.started [] CrawlerDb.empty "EDUCATIONAL_CRAWLER") =
        some sampleSortStorage := rfl
  refine ⟨sampleSortStorage, .move .start trivial step, allowed, fun decides => ?_⟩
  obtain ⟨rules, text, answer⟩ := DomainRobots.allows_eq_some forbids
  have known : sampleSortStorage.robotsOf sampleLinkCrates "a.example" ≠ .unknown := by
    rw [text]
    exact nofun
  cases allowed.symm.trans ((decides.disallowed known).mpr ⟨rules, text, answer⟩)

end PoliteCrawler
