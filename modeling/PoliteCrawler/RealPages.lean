/-
This file says when only real pages are published.

A download that is refused by its extension, answered with another type than
HTML, or not found, gives an empty page in place of an error. The parser takes it
like any page: without keywords it is to be saved, and an event of it is
published and counted. With keywords it has none of them, so that only answers of
the server with content get through.
-/

import PoliteCrawler.Launch

namespace PoliteCrawler

variable {Url : Type} {crates : Crates Url}

/-! ### What the server answers -/

/-- The final response is successful and of no declared type but HTML. -/
def RealPage (crates : Crates Url) (web : Web Url) (url : Url) : Prop :=
  isBlacklistedExtension crates url = false ∧ ∃ final response,
    sendWithRetry web url = .ok (final, response) ∧ response.isSuccess = true ∧
      declaresNonHtml response = false

/-- The download gives an empty page: for the extension, for a declared type other than HTML, or for
a page that is not found. -/
def AnsweredBlank (crates : Crates Url) (web : Web Url) (url : Url) : Prop :=
  isBlacklistedExtension crates url = true ∨ ∃ final response,
    sendWithRetry web url = .ok (final, response) ∧
      (declaresNonHtml response = true ∨ response.status = notFound)

theorem not_success_of_notFound {response : Response} (missing : response.status = notFound) :
    response.isSuccess = false := by
  rw [Response.isSuccess, missing]
  rfl

/-- The page of a real answer, or an empty one. -/
theorem getPage_real_or_blank {web : Web Url} {url : Url} {data : NotParsedPageData Url}
    (got : getPage crates web url = .ok data) :
    RealPage crates web url ∨ AnsweredBlank crates web url ∧ data.content = "" := by
  cases getPage_origin crates got with
  | listed listed => exact Or.inr ⟨Or.inl listed, rfl⟩
  | nonHtml _ sent declared => exact Or.inr ⟨Or.inr ⟨_, _, sent, Or.inl declared⟩, rfl⟩
  | successful _ unlisted sent html success => exact Or.inl ⟨unlisted, _, _, sent, success, html⟩
  | missing sent missing => exact Or.inr ⟨Or.inr ⟨_, _, sent, Or.inr missing⟩, rfl⟩

/-- A download that is answered blank gives an empty page, and no real one. -/
theorem AnsweredBlank.getPage {web : Web Url} {url : Url} (blank : AnsweredBlank crates web url) :
    (∃ asked, getPage crates web url = .ok ⟨asked, ""⟩) ∧ ¬ RealPage crates web url := by
  by_cases listed : isBlacklistedExtension crates url = true
  · refine ⟨⟨url, by simp only [PoliteCrawler.getPage, listed, if_true]⟩, fun real => ?_⟩
    cases listed.symm.trans real.1
  · obtain ⟨final, response, sent, answered⟩ := blank.resolve_left listed
    have page : PoliteCrawler.getPage crates web url =
        pageOfResponse crates url final response := by
      simp only [PoliteCrawler.getPage, listed, sent]
      rfl
    have unreal : ¬ RealPage crates web url := by
      rintro ⟨_, other, same, sentOther, success, html⟩
      obtain ⟨rfl, rfl⟩ := Prod.mk.inj (Except.ok.inj (sent.symm.trans sentOther))
      rcases answered with declared | missing
      · cases declared.symm.trans html
      · cases success.symm.trans (not_success_of_notFound missing)
    refine ⟨?_, unreal⟩
    rw [page, pageOfResponse]
    by_cases declared : declaresNonHtml response = true
    · exact ⟨_, by rw [if_pos declared]⟩
    · have missing := answered.resolve_left declared
      refine ⟨url, ?_⟩
      rw [if_neg declared, not_success_of_notFound missing, if_neg Bool.false_ne_true,
        if_pos missing]

/-! ### Handling an allowed URL -/

section Handling

variable [DecidableEq Url]

/-- The steps of one worker by itself. -/
def soloStep (crates : Crates Url) (input : Input Url) (state : Shared Url × Worker Url) :
    Option (Shared Url × Worker Url) :=
  workerStep crates input state.1 state.2

/-- The step belongs to `handle_allowed_domain`, whose download is answered by the web. -/
def handlesAllowed (web : Web Url) (keywordsFile : Option String) :
    Shared Url × Worker Url → Input Url → Prop
  | (_, .working _ _ (.askingDelay _ _)), _ => True
  | (_, .working _ _ (.fetchingPage _)), input => input = .web web keywordsFile
  | (_, .working _ _ (.savingPage _ _)), _ => True
  | (_, .working _ _ (.countingPage _)), _ => True
  | _, _ => False

/-- A page event is published, or a page counted. -/
def Publishes (before after : Shared Url) : Prop :=
  after.journal.published ≠ before.journal.published ∨ after.pagesCrawled ≠ before.pagesCrawled

/-- However it goes, `handle_allowed_domain` publishes and counts only a real page. -/
def PublishesOnlyReal (crates : Crates Url) (web : Web Url) (keywordsFile : Option String)
    (url : Url) : Prop :=
  ∀ (shared : Shared Url) (ticket : Nat) (host : String) (decided : CrawlerStorage Url)
    (state : Shared Url × Worker Url),
    Transition.ReachesWith (soloStep crates) (handlesAllowed web keywordsFile)
      (shared, .working url ticket (.askingDelay host decided)) state →
    Publishes shared state.1 → RealPage crates web url

/-- Before the page event nothing is published or counted, and an event is about a real page. -/
def HandledSoFar (crates : Crates Url) (web : Web Url) (url : Url) (shared : Shared Url)
    (state : Shared Url × Worker Url) : Prop :=
  match state.2 with
  | .working asked _ (.askingDelay _ _) | .working asked _ (.fetchingPage _) =>
    asked = url ∧ ¬ Publishes shared state.1
  | .working _ _ (.savingPage _ _) | .working _ _ (.countingPage _) => RealPage crates web url
  | _ => Publishes shared state.1 → RealPage crates web url

omit [DecidableEq Url] in
theorem not_publishes_self (shared : Shared Url) : ¬ Publishes shared shared :=
  not_or.mpr ⟨not_not.mpr rfl, not_not.mpr rfl⟩

/-- What a download leads to: the page is saved only when the parser says so. -/
theorem fetchPageTask_cases {web : Web Url} {keywordsFile : Option String} {url : Url}
    {ticket : Nat} {decided : CrawlerStorage Url} {shared next : Shared Url} {worker : Worker Url}
    (moved : fetchPageTask crates (.web web keywordsFile) url ticket decided shared =
      some (next, worker)) :
    next = (shared.noteDownload url).notePageGrant ticket ∧
      ((∃ ends, worker = .dropping ends) ∨ ∃ data, getPage crates web url = .ok data ∧
        worker = if (ParsedPage.parse crates keywordsFile data).1 then
            .working url ticket (.savingPage (ParsedPage.parse crates keywordsFile data).2 decided)
          else .working url ticket (.inserting (sortedLinks crates
            (ParsedPage.parse crates keywordsFile data).2.outboundLinks) [])) := by
  cases got : getPage crates web url with
  | ok data =>
    simp only [fetchPageTask, got, afterDownload] at moved
    obtain ⟨rfl, rfl⟩ := Prod.mk.inj (Option.some.inj moved)
    exact ⟨rfl, Or.inr ⟨data, rfl, rfl⟩⟩
  | error abort =>
    simp only [fetchPageTask, got] at moved
    cases abort <;> cases moved <;> exact ⟨rfl, Or.inl ⟨_, rfl⟩⟩

theorem soloStep_handled (blank : BlankDocument crates) {web : Web Url}
    {keywordsFile : Option String} {url : Url} {shared : Shared Url} {input : Input Url}
    {state next : Shared Url × Worker Url}
    (answers : keywordsOf crates keywordsFile ≠ [] ∨ ¬ AnsweredBlank crates web url)
    (handled : HandledSoFar crates web url shared state)
    (handles : handlesAllowed web keywordsFile state input)
    (moved : soloStep crates input state = some next) :
    HandledSoFar crates web url shared next := by
  obtain ⟨before, worker⟩ := state
  obtain ⟨after, left⟩ := next
  cases worker with
  | working asked ticket task =>
    have stepped : taskStep crates input asked ticket before task = some (after, left) := moved
    cases task with
    | askingDelay host decided =>
      obtain ⟨rfl, quiet⟩ := handled
      cases taskStep_moved stepped with
      | delayAsked _ goesOn =>
        rcases goesOn with rfl | ⟨_, rfl⟩
        · exact ⟨rfl, quiet⟩
        · exact fun publishes => absurd publishes quiet
    | fetchingPage decided =>
      obtain ⟨rfl, quiet⟩ := handled
      obtain rfl : input = .web web keywordsFile := handles
      obtain ⟨rfl, ⟨ends, rfl⟩ | ⟨data, got, rfl⟩⟩ := fetchPageTask_cases stepped
      · exact fun publishes => absurd publishes quiet
      · by_cases saves : (ParsedPage.parse crates keywordsFile data).1 = true
        · rw [if_pos saves]
          rcases getPage_real_or_blank got with real | ⟨blanked, empty⟩
          · exact real
          · obtain ⟨final, content⟩ := data
            obtain rfl : content = "" := empty
            exact absurd ((blank.parse_iff keywordsFile final).mp saves)
              (answers.resolve_right (not_not.mpr blanked))
        · rw [if_neg saves]
          exact fun publishes => absurd publishes quiet
    | savingPage page decided =>
      have real : RealPage crates web url := handled
      cases taskStep_moved stepped with
      | pageSaved _ goesOn =>
        rcases goesOn with rfl | ⟨_, rfl⟩
        · exact real
        · exact fun _ => real
      | pageUnsaved => exact fun _ => real
    | countingPage links =>
      have real : RealPage crates web url := handled
      cases taskStep_moved stepped with
      | pageCounted => exact fun _ => real
    | _ => exact handles.elim
  | _ => exact handles.elim

/-- A worker service beside a storage service that answers, with nothing in its tables. -/
def Shared.idle : Shared Url :=
  (Crawler.fresh 0 { StorageService.initial CrawlerDb.empty defaultAgentName with
    consumer := .reading } : Crawler Url 0).shared

/-- An empty page that is to be saved is published. -/
theorem publishes_blank {web : Web Url} {keywordsFile : Option String} {url asked : Url}
    (got : getPage crates web url = .ok ⟨asked, ""⟩)
    (saves : (ParsedPage.parse crates keywordsFile ⟨asked, ""⟩).1 = true) :
    ∃ state, Transition.ReachesWith (soloStep crates) (handlesAllowed web keywordsFile)
        (Shared.idle, .working url 0 (.askingDelay "" Shared.idle.service.storage)) state ∧
      Publishes (Shared.idle : Shared Url) state.1 := by
  let shared : Shared Url := Shared.idle
  let page := (ParsedPage.parse crates keywordsFile (⟨asked, ""⟩ : NotParsedPageData Url)).2
  let decided := shared.service.storage
  let fetched := (shared.noteDownload url).notePageGrant 0
  have asks : soloStep crates (.rpc DbFaults.none .answered)
      (shared, .working url 0 (.askingDelay "" decided)) =
        some (shared, .working url 0 (.fetchingPage decided)) := rfl
  have fetches : soloStep crates (.web web keywordsFile)
      (shared, .working url 0 (.fetchingPage decided)) =
        some (fetched, .working url 0 (.savingPage page decided)) := by
    show fetchPageTask crates (.web web keywordsFile) url 0 decided shared = _
    simp only [fetchPageTask, got, afterDownload, saves, if_true]
    rfl
  have publishes : soloStep crates (.redis .answered)
      (fetched, .working url 0 (.savingPage page decided)) = some
        (fetched.notePublished ⟨convertParsedPageToSaveData crates page, decided⟩
          (publishEvent crates fetched.service
            (.parsedPage (convertParsedPageToSaveData crates page)) .answered),
        .working url 0 (.countingPage page.outboundLinks)) := rfl
  refine ⟨_, .move (.move (.move .start trivial asks) rfl fetches) trivial publishes, Or.inl ?_⟩
  exact List.cons_ne_nil _ _

/-- `handle_allowed_domain` publishes and counts only real pages if and only if there are keywords,
or the download is not answered with an empty page. -/
theorem publishesOnlyReal_iff (blank : BlankDocument crates) (web : Web Url)
    (keywordsFile : Option String) (url : Url) :
    PublishesOnlyReal crates web keywordsFile url ↔
      keywordsOf crates keywordsFile ≠ [] ∨ ¬ AnsweredBlank crates web url := by
  constructor
  · intro only
    by_contra neither
    obtain ⟨noKeywords, blanked⟩ := (not_or.mp neither).imp not_not.mp not_not.mp
    obtain ⟨⟨asked, got⟩, unreal⟩ := blanked.getPage
    have saves := (blank.parse_iff keywordsFile asked).mpr noKeywords
    obtain ⟨state, reached, publishes⟩ := publishes_blank got saves
    exact unreal (only _ _ _ _ state reached publishes)
  · intro answers shared ticket host decided state reached publishes
    have handled : HandledSoFar crates web url shared state :=
      reached.invariant ⟨rfl, not_publishes_self shared⟩
        fun _ _ _ handled handles moved => soloStep_handled blank answers handled handles moved
    obtain ⟨after, worker⟩ := state
    unfold HandledSoFar at handled
    split at handled
    · exact absurd publishes handled.2
    · exact absurd publishes handled.2
    · exact handled
    · exact handled
    · exact handled publishes

end Handling

/-! ### The sample web -/

theorem blankDocument_sample : BlankDocument sampleCrates := by
  constructor <;> decide +kernel

theorem publishesOnlyReal_iff_sample :
    PublishesOnlyReal sampleCrates sampleWeb none .about ↔
      keywordsOf sampleCrates none ≠ [] ∨ ¬ AnsweredBlank sampleCrates sampleWeb .about :=
  publishesOnlyReal_iff blankDocument_sample sampleWeb none .about

/-- Nothing is found on the site. -/
def sampleMissingWeb : Web SampleUrl := fun _ _ => .answer ⟨404, some (some "text/html"), some ""⟩

/-- Without keywords a page that is not found is published. -/
theorem missing_page_published :
    ¬ PublishesOnlyReal sampleCrates sampleMissingWeb none .about := by
  have got : getPage sampleCrates sampleMissingWeb .about = .ok ⟨.about, ""⟩ := rfl
  have saves : (ParsedPage.parse sampleCrates none
      (⟨.about, ""⟩ : NotParsedPageData SampleUrl)).1 = true := rfl
  intro only
  obtain ⟨state, reached, publishes⟩ := publishes_blank got saves
  obtain ⟨_, final, response, sent, success, _⟩ := only _ _ _ _ state reached publishes
  have answered : sendWithRetry sampleMissingWeb .about =
      .ok (.about, ⟨404, some (some "text/html"), some ""⟩) := rfl
  obtain ⟨rfl, rfl⟩ := Prod.mk.inj (Except.ok.inj (answered.symm.trans sent))
  cases success

end PoliteCrawler
