/-
This file says what the database is for: it is the events that were written,
told one after the other.

`applyEvent` is the database as an event-sourced machine. A domain event writes
the row of its domain; a page event writes the row of its URL, under the id of
its domain, and is not possible before the domain is known. There is no cache,
no index of hashes and no failing call in it.

A replay never loses a row: a domain keeps its id, and a URL its row, which shows
the last event of the URL. A save of the storage service applies its event or
leaves the tables, and which of the two it does can be told from its answer.
-/

import PoliteCrawler.PendingEvents

namespace PoliteCrawler

open CrawlerDb ContentDeduplicator

variable {Url : Type} (crates : Crates Url)

/-! ### Applying an event -/

/-- The row of the domain of the page. -/
def domainOfPage (db : CrawlerDb) (page : ParsedPageSaveData) : Option DomainRow :=
  (hostOfPage crates page).bind db.domains.find?

/-- The row that a page is written as. -/
def rowOfPage (domain : DomainRow) (page : ParsedPageSaveData) : PageRow :=
  pageRow domain.domId page (page.cleanText.map (calculateHash crates))

/-- The row has the columns of the page, the id of the page's domain and the hash of its text. -/
def RowOf (db : CrawlerDb) (page : ParsedPageSaveData) (row : PageRow) : Prop :=
  ∃ domain, domainOfPage crates db page = some domain ∧ row = rowOfPage crates domain page

/-- The database after an event. -/
def applyEvent : ParsedData → CrawlerDb → Option CrawlerDb
  | .parsedDomain data, db => some (db.upsertDomain data)
  | .parsedPage page, db =>
    (domainOfPage crates db page).map fun domain => db.upsertPage (rowOfPage crates domain page)

/-- The database that the events make of another one. -/
def replay (events : List ParsedData) (db : CrawlerDb) : Option CrawlerDb :=
  Transition.run (applyEvent crates) events db

variable {crates}

theorem replay_concat (events : List ParsedData) (event : ParsedData) (db : CrawlerDb) :
    replay crates (events ++ [event]) db =
      (replay crates events db).bind (applyEvent crates event) := by
  rw [replay, Transition.run_append]
  refine Option.bind_congr fun middle _ => ?_
  rw [Transition.run]
  exact Option.bind_fun_some _

/-! ### What an event leaves -/

section Step

variable {event : ParsedData} {db next : CrawlerDb}

/-- A domain keeps its row, and the row its id. -/
theorem applyEvent_domain (applied : applyEvent crates event db = some next) {domain : String}
    {row : DomainRow} (found : db.domains.find? domain = some row) :
    ∃ later, next.domains.find? domain = some later ∧ later.domId = row.domId := by
  cases event with
  | parsedDomain data =>
    cases applied
    by_cases same : domain = data.domainString
    · subst same
      refine ⟨_, find?_upsertDomain_self db data, ?_⟩
      rw [found]
      rfl
    · exact ⟨row, (find?_upsertDomain_of_ne db data same).trans found, rfl⟩
  | parsedPage page =>
    obtain ⟨_, _, rfl⟩ := Option.map_eq_some_iff.mp applied
    exact ⟨row, found, rfl⟩

/-- What was the row of a page still is. -/
theorem RowOf.applied {page : ParsedPageSaveData} {row : PageRow} (rowOf : RowOf crates db page row)
    (applied : applyEvent crates event db = some next) : RowOf crates next page row := by
  obtain ⟨domain, found, rfl⟩ := rowOf
  obtain ⟨host, hosted, stored⟩ := Option.bind_eq_some_iff.mp found
  obtain ⟨later, there, same⟩ := applyEvent_domain applied stored
  refine ⟨later, Option.bind_eq_some_iff.mpr ⟨host, hosted, there⟩, ?_⟩
  rw [rowOfPage, rowOfPage, same]

/-- The row of a URL is the one the event writes, or as it was. -/
theorem applyEvent_page (applied : applyEvent crates event db = some next) (url : String) :
    (∃ page row, event = .parsedPage page ∧ page.url = url ∧ RowOf crates next page row ∧
        next.pages.find? url = some row) ∨
      (∀ page, event = .parsedPage page → page.url ≠ url) ∧
        next.pages.find? url = db.pages.find? url := by
  cases event with
  | parsedDomain data =>
    cases applied
    exact Or.inr ⟨(fun _ same => by cases same), rfl⟩
  | parsedPage page =>
    obtain ⟨domain, found, rfl⟩ := Option.map_eq_some_iff.mp applied
    by_cases same : page.url = url
    · subst same
      exact Or.inl ⟨page, rowOfPage crates domain page, rfl, rfl, ⟨domain, found, rfl⟩,
        db.pages.find?_upsert_self _ _ fun _ => rfl⟩
    · refine Or.inr ⟨?_, db.pages.find?_upsert_of_ne _ _ (fun _ => rfl) (Ne.symm same)⟩
      rintro _ ⟨⟩
      exact same

end Step

/-! ### What a replay leaves -/

/-- Every row is still there: a domain's with its id, and a URL's with some content. -/
structure CrawlerDb.LivesOnIn (old next : CrawlerDb) : Prop where
  domains : ∀ domain row, old.domains.find? domain = some row →
    ∃ later, next.domains.find? domain = some later ∧ later.domId = row.domId
  pages : ∀ url row, old.pages.find? url = some row → ∃ later, next.pages.find? url = some later

/-- The row is that of the last of the events that is about its URL, or there is none, and it was
there before. -/
def ShowsLast (crates : Crates Url) (events : List ParsedData) (old next : CrawlerDb)
    (row : PageRow) : Prop :=
  (∃ before page after, events = before ++ .parsedPage page :: after ∧
      RowOf crates next page row ∧ ∀ other, .parsedPage other ∈ after → other.url ≠ row.url) ∨
    old.pages.find? row.url = some row ∧ ∀ other, .parsedPage other ∈ events → other.url ≠ row.url

section Replay

variable {events : List ParsedData} {db next : CrawlerDb}

theorem CrawlerDb.LivesOnIn.refl (db : CrawlerDb) : db.LivesOnIn db :=
  ⟨fun _ row found => ⟨row, found, rfl⟩, fun _ row found => ⟨row, found⟩⟩

theorem replay_livesOn (replayed : replay crates events db = some next) : db.LivesOnIn next := by
  have reached : Transition.Reaches (applyEvent crates) db next :=
    Transition.reaches_of_run replayed
  refine reached.invariant (.refl db) fun before event after lives _ applied => ⟨?_, ?_⟩
  · intro domain row found
    obtain ⟨middle, there, same⟩ := lives.domains domain row found
    obtain ⟨later, still, kept⟩ := applyEvent_domain applied there
    exact ⟨later, still, kept.trans same⟩
  · intro url row found
    obtain ⟨middle, there⟩ := lives.pages url row found
    rcases applyEvent_page applied url with ⟨_, _, _, _, _, written⟩ | ⟨_, kept⟩
    · exact ⟨_, written⟩
    · exact ⟨middle, kept.trans there⟩

/-- Every row of a replay shows the last event of its URL. -/
theorem replay_showsLast (replayed : replay crates events db = some next) :
    ∀ row ∈ next.pages.rows, ShowsLast crates events db next row := by
  induction events using List.reverseRecOn generalizing next with
  | nil =>
    obtain rfl : db = next := Option.some.inj replayed
    intro row member
    refine Or.inr ⟨db.pages.find?_eq_some_iff.mpr ⟨member, rfl⟩, fun _ none => ?_⟩
    cases none
  | append_singleton events event inductionHypothesis =>
    rw [replay_concat] at replayed
    obtain ⟨middle, before, applied⟩ := Option.bind_eq_some_iff.mp replayed
    intro row member
    have found : next.pages.find? row.url = some row :=
      next.pages.find?_eq_some_iff.mpr ⟨member, rfl⟩
    rcases applyEvent_page applied row.url with
      ⟨page, written, rfl, _, rowOf, stored⟩ | ⟨others, kept⟩
    · obtain rfl : row = written := Option.some.inj (found.symm.trans stored)
      exact Or.inl ⟨events, page, [], rfl, rowOf, fun _ none => by cases none⟩
    · have old : row ∈ middle.pages.rows :=
        (middle.pages.find?_eq_some_iff.mp (kept ▸ found)).1
      rcases inductionHypothesis before row old with
        ⟨first, page, after, rfl, rowOf, last⟩ | ⟨there, none⟩
      · refine Or.inl ⟨first, page, after ++ [event], ?_, rowOf.applied applied,
          fun other member => ?_⟩
        · rw [List.append_assoc, List.cons_append]
        · rcases List.mem_append.mp member with earlier | final
          · exact last other earlier
          · exact others other (List.mem_singleton.mp final).symm
      · refine Or.inr ⟨there, fun other member => ?_⟩
        rcases List.mem_append.mp member with earlier | final
        · exact none other earlier
        · exact others other (List.mem_singleton.mp final).symm

end Replay

/-! ### Saving an event -/

/-- Whether a save that answers with the result writes its event. A domain is written before its
entry is built, so also when that fails; a page is written when it is accepted and its text is not
taken for one that is known. -/
def writes (crates : Crates Url) (dedup : ContentDeduplicator) (faults : DbFaults)
    (result : Outcome (List String)) : ParsedData → Bool
  | .parsedDomain _ => !allFail faults.write
  | .parsedPage page => result.isOk && !page.cleanText.any (dedup.isDuplicate crates)

section Saves

variable {before after : CrawlerStorage Url} {faults : DbFaults} {event : ParsedData}
  {result : Outcome (List String)}

/-- The domain of a page that is identified has a row with the id. -/
theorem Identified.domainOfPage {page : ParsedPageSaveData} {id : Int}
    (identified : Identified crates before faults page id) (fit : CacheIdentifies before) :
    ∃ row, domainOfPage crates before.db page = some row ∧ row.domId = id := by
  obtain ⟨url, host, parsed, hosted, found⟩ := identified
  obtain ⟨row, stored, same⟩ := getDomainId_row crates fit found
  refine ⟨row, ?_, same⟩
  rw [PoliteCrawler.domainOfPage, hostOfPage, parsed]
  exact Option.bind_eq_some_iff.mpr ⟨host, hosted, stored⟩

/-- A save that writes applies its event. -/
theorem Saved.applied (saved : Saved crates before faults event result after)
    (fit : CacheIdentifies before)
    (written : PoliteCrawler.writes crates before.dedup faults result event = true) :
    applyEvent crates event before.db = some after.db := by
  cases saved with
  | written identified text _ _ _ | blank identified text _ _ =>
    obtain ⟨row, found, rfl⟩ := identified.domainOfPage fit
    refine Option.map_eq_some_iff.mpr ⟨row, found, ?_⟩
    rw [rowOfPage, text]
    rfl
  | domainUncached _ _ | domainSaved _ _ => rfl
  | duplicate _ text known _ => simp [writes, text, known] at written
  | domainRefused failed =>
    rw [saveDomain_eq] at failed
    split at failed
    · rename_i fails
      simp [writes, fails] at written
    · cases failed
  | _ => cases written

/-- A save that does not write leaves the tables as they are. -/
theorem Saved.unapplied (saved : Saved crates before faults event result after)
    (unwritten : PoliteCrawler.writes crates before.dedup faults result event = false) :
    after.db = before.db := by
  cases saved with
  | written _ text fresh _ _ =>
    simp [writes, text, fresh, Except.isOk, Except.toBool] at unwritten
  | blank _ text _ _ => simp [writes, text, Except.isOk, Except.toBool] at unwritten
  | domainUncached stored _ | domainSaved stored _ =>
    rw [saveDomain_eq] at stored
    split at stored
    · cases stored
    · rename_i fails
      simp [writes, fails] at unwritten
  | _ => rfl

end Saves

end PoliteCrawler
