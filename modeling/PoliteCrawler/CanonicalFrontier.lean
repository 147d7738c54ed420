/-
This file says when the crawl frontier is canonical: when every URL that a worker
or the consumer pushes as new work is http or https and has no fragment.

The link extractor puts the links of a page into that form, and so what pages add
to the frontier is canonical. The URLs that a sitemap lists, and the sitemaps that
a robots.txt names, are pushed as they are read. In a run in which these are in
the form already, everything that is discovered is.
-/

import PoliteCrawler.LinkExtraction
import PoliteCrawler.PartyLedger

namespace PoliteCrawler

variable {Url : Type} (crates : Crates Url)

/-! ### Canonical URLs -/

/-- The URL is http or https and has no fragment. -/
def IsCanonical (url : Url) : Prop := IsHttp crates url ∧ crates.url.withoutFragment url = url

instance [DecidableEq Url] (url : Url) : Decidable (IsCanonical crates url) :=
  inferInstanceAs (Decidable (_ ∧ _))

def CanonicalText (text : String) : Prop :=
  ∃ url, IsCanonical crates url ∧ text = crates.url.asStr url

/-! ### Discoveries -/

/-- A deployment beside the texts that its workers and its consumer have pushed as new work. -/
structure Discovery (Url : Type) (n : Nat) where
  deployment : Deployment Url n
  discovered : List String

variable {n : Nat}

/-- The texts an action of the workers or of the consumer pushes as new work; what the launch
pushes are the seeds. -/
def Deployment.discoveredBy (deployment : Deployment Url n) : DeploymentAction Url n → List String
  | .crawl action => enteredBy deployment.crawler action
  | _ => []

/-- Every text is that of a canonical URL, and URLs that differ at most in their fragment have the
same text. -/
structure Discovery.Canonical (discovery : Discovery Url n) : Prop where
  form : ∀ text ∈ discovery.discovered, ∃ url, crates.url.parse text = .ok url ∧
    IsHttp crates url ∧ crates.url.withoutFragment url = url
  apart : ∀ first ∈ discovery.discovered, ∀ second ∈ discovery.discovered, ∀ url other,
    crates.url.parse first = .ok url → crates.url.parse second = .ok other →
    crates.url.withoutFragment url = crates.url.withoutFragment other → first = second

variable [DecidableEq Url]

def discoveryStep (limit : Option (BitVec 64)) (action : DeploymentAction Url n)
    (discovery : Discovery Url n) : Option (Discovery Url n) :=
  (deploymentStep crates limit action discovery.deployment).map fun deployment => {
    deployment
    discovered := discovery.discovered ++ discovery.deployment.discoveredBy action }

/-- A page that a worker downloads comes from an http or https URL. -/
def Worker.asksHttp : Worker Url → Input Url → Bool
  | .working url _ (.fetchingPage _), .web web _ =>
    match sendWithRetry web url with
    | .ok (final, _) => IsHttp crates final
    | .error _ => true
  | _, _ => true

/-- A sitemap that a worker downloads lists canonical URLs. -/
def Worker.listsCanonical : Worker Url → Input Url → Bool
  | .working url _ .fetchingSitemap, .web web _ =>
    match getXmlContent crates web url with
    | .ok xml => (SitemapsParser.locTexts (crates.readEvents xml) none).all fun raw =>
      (SitemapsParser.locUrl crates raw).all fun url => IsCanonical crates url
    | .error _ => true
  | _, _ => true

/-- The sitemap the consumer comes to is a canonical URL, or does not parse. -/
def Consumer.listsCanonical : Consumer → Bool
  | .offering _ (sitemap :: _) _ =>
    match crates.url.parse sitemap with
    | .ok url => IsCanonical crates url
    | .error _ => true
  | _ => true

/-- The client asks only http and https URLs. -/
def Deployment.asksHttp (deployment : Deployment Url n) : DeploymentAction Url n → Bool
  | .crawl (.worker id input) => (deployment.crawler.workers id).asksHttp crates input
  | _ => true

/-- What the action reads from a sitemap or a robots.txt is canonical. -/
def Deployment.listsCanonical (deployment : Deployment Url n) : DeploymentAction Url n → Bool
  | .crawl (.worker id input) => (deployment.crawler.workers id).listsCanonical crates input
  | .crawl (.service .offer) =>
    deployment.crawler.shared.service.consumer.listsCanonical crates
  | _ => true

/-! ### What is read -/

section Reading

variable {crates}

/-- The links of an http or https page are canonical. -/
theorem outboundUrls_canonical (laws : UrlLaws crates) {page : Url} (http : IsHttp crates page)
    (doc : Html) : ∀ link ∈ outboundUrls crates page doc, IsCanonical crates link := by
  intro link member
  rw [outboundUrls_eq_filterMap] at member
  obtain ⟨href, _, found⟩ := List.mem_filterMap.mp member
  rw [outboundUrl_eq_filter laws http] at found
  obtain ⟨linked, _⟩ := Option.filter_eq_some_iff.mp found
  obtain ⟨resolves, scheme⟩ := Option.filter_eq_some_iff.mp linked
  obtain ⟨target, _, rfl⟩ := Option.map_eq_some_iff.mp resolves
  exact ⟨of_decide_eq_true scheme, laws.withoutFragment_idem target⟩

theorem parse_outboundLinks (keywordsFile : Option String) (data : NotParsedPageData Url) :
    (ParsedPage.parse crates keywordsFile data).2.outboundLinks =
      outboundUrls crates data.url (crates.parseDocument data.content) := by
  simp only [ParsedPage.parse]
  split <;> rfl

omit [DecidableEq Url] in
/-- A page with text comes from the URL of its response. -/
theorem getPage_final {web : Web Url} {url : Url} {data : NotParsedPageData Url}
    (got : getPage crates web url = .ok data) : data.content = "" ∨
      ∃ final response, sendWithRetry web url = .ok (final, response) ∧
        data.url = responseUrl crates final := by
  cases getPage_origin crates got with
  | listed | nonHtml | missing => exact Or.inl rfl
  | successful _ _ sent _ _ => exact Or.inr ⟨_, _, sent, rfl⟩

/-- The links of a page that is downloaded are canonical. -/
theorem links_canonical (laws : UrlLaws crates) (blank : BlankDocument crates) {web : Web Url}
    {url : Url} {ticket : Nat} {decided : CrawlerStorage Url} {keywordsFile : Option String}
    {data : NotParsedPageData Url} (got : getPage crates web url = .ok data)
    (asks : (Worker.working url ticket (.fetchingPage decided)).asksHttp crates
      (.web web keywordsFile) = true) :
    ∀ link ∈ (ParsedPage.parse crates keywordsFile data).2.outboundLinks,
      IsCanonical crates link := by
  rw [parse_outboundLinks]
  rcases getPage_final got with empty | ⟨final, response, sent, same⟩
  · rw [empty, blank.outboundUrls]
    exact nofun
  · simp only [Worker.asksHttp, sent] at asks
    rw [same]
    exact outboundUrls_canonical laws
      ((laws.isHttp_withoutFragment final).mpr (of_decide_eq_true asks)) _

omit [DecidableEq Url] in
/-- The URLs of a sitemap that a worker downloads are those the document lists. -/
theorem sitemap_lists {web : Web Url} {url : Url} {links : List Url}
    (got : SitemapsParser.parse crates web [crates.url.asStr url] = .ok links) :
    ∀ link ∈ links, ∃ xml, getXmlContent crates web url = .ok xml ∧
      ∃ raw ∈ SitemapsParser.locTexts (crates.readEvents xml) none,
        SitemapsParser.locUrl crates raw = some link := by
  have single : [crates.url.asStr url].filterMap
      (fun sitemap => (crates.url.parse sitemap).toOption) = [url] := by
    simp only [List.filterMap_cons, crates.url.parse_asStr, List.filterMap_nil]
    rfl
  rw [SitemapsParser.parse, single] at got
  simp only [SitemapsParser.parse.parseAll] at got
  split at got
  · cases got
  · cases got
    exact nofun
  · rename_i xml downloaded
    cases got
    intro link member
    have listed : link ∈ SitemapsParser.parseSitemap crates xml ++ [] := member
    rw [List.append_nil] at listed
    exact ⟨xml, downloaded, List.mem_filterMap.mp listed⟩

theorem mem_of_mem_sortedLinks {links : List Url} {link : Url}
    (member : link ∈ sortedLinks crates links) : link ∈ links :=
  List.mem_insertionSort _ |>.mp ((List.destutter_sublist _ _).subset member)

end Reading

/-! ### What the parties have found -/

/-- The texts of the links that a worker has read and may push. -/
def Worker.found : Worker Url → List String
  | .working _ _ (.savingPage page _) => page.outboundLinks.map crates.url.asStr
  | .working _ _ (.countingPage links) => links.map crates.url.asStr
  | .working _ _ (.inserting links filtered) => links.map crates.url.asStr ++ filtered
  | .working _ _ (.pushing _ filtered) => filtered
  | _ => []

def Worker.FoundCanonical (worker : Worker Url) : Prop :=
  ∀ text ∈ worker.found crates, CanonicalText crates text

/-- What the parties have found, and what they have pushed, is canonical. -/
structure Discovery.Kept (discovery : Discovery Url n) : Prop where
  workers : ∀ id, (discovery.deployment.crawler.workers id).FoundCanonical crates
  consumer : ∀ text ∈ discovery.deployment.crawler.shared.service.consumer.filtered,
    CanonicalText crates text
  discovered : ∀ text ∈ discovery.discovered, CanonicalText crates text

section Parties

variable {crates} {shared next : Shared Url}

theorem mem_of_mem_effect {call : Call} {texts : List String} {text : String}
    (member : text ∈ call.effect texts) : text ∈ texts := by
  unfold Call.effect at member
  split at member
  · cases member
  · exact member

omit [DecidableEq Url] in
theorem canonicalText_of_map {links : List Url}
    (canonical : ∀ link ∈ links, IsCanonical crates link) :
    ∀ text ∈ links.map crates.url.asStr, CanonicalText crates text := by
  intro text member
  obtain ⟨link, listed, rfl⟩ := List.mem_map.mp member
  exact ⟨link, canonical link listed, rfl⟩

theorem mem_of_mem_sorted {links : List Url} {text : String}
    (member : text ∈ (sortedLinks crates links).map crates.url.asStr ++ []) :
    text ∈ links.map crates.url.asStr := by
  rw [List.append_nil] at member
  obtain ⟨link, listed, rfl⟩ := List.mem_map.mp member
  exact List.mem_map_of_mem (mem_of_mem_sortedLinks listed)

/-- The links of a sitemap that lists canonical URLs. -/
theorem sitemap_canonical {web : Web Url} {url : Url} {ticket : Nat} {keywords : Option String}
    {links : List Url} (got : SitemapsParser.parse crates web [crates.url.asStr url] = .ok links)
    (lists : (Worker.working url ticket .fetchingSitemap).listsCanonical crates
      (.web web keywords) = true) : ∀ link ∈ links, IsCanonical crates link := by
  intro link member
  obtain ⟨xml, downloaded, raw, listed, located⟩ := sitemap_lists got link member
  simp only [Worker.listsCanonical, downloaded, List.all_eq_true] at lists
  have canonical := lists raw listed
  rw [located] at canonical
  exact of_decide_eq_true canonical

/-- What a task has found it had found before, or it is canonical. -/
theorem TaskMoved.found (laws : UrlLaws crates) (blank : BlankDocument crates) {url : Url}
    {ticket : Nat} {task : Task Url} {input : Input Url} {worker : Worker Url}
    (moved : TaskMoved crates url ticket shared task input next worker)
    (asks : (Worker.working url ticket task).asksHttp crates input = true)
    (lists : (Worker.working url ticket task).listsCanonical crates input = true) :
    ∀ text ∈ worker.found crates,
      text ∈ (Worker.working url ticket task).found crates ∨ CanonicalText crates text := by
  cases moved with
  | pageFetched got goesOn =>
    have canonical := links_canonical laws blank got asks
    intro text member
    rcases goesOn with rfl | rfl
    · exact Or.inr (canonicalText_of_map canonical text member)
    · exact Or.inr (canonicalText_of_map canonical text (mem_of_mem_sorted member))
  | sitemapFetched got =>
    intro text member
    have canonical := sitemap_canonical got lists
    exact Or.inr (canonicalText_of_map canonical text (mem_of_mem_sorted member))
  | pageSaved _ goesOn =>
    rcases goesOn with rfl | ⟨_, rfl⟩
    · exact fun text member => Or.inl member
    · exact List.forall_mem_nil _
  | pageCounted =>
    exact fun text member => Or.inl (mem_of_mem_sorted member)
  | linkInserted _ goesOn =>
    intro text member
    refine Or.inl (List.mem_cons.mpr ?_)
    rcases goesOn with rfl | rfl
    · rcases List.mem_append.mp member with later | held
      · exact Or.inr (List.mem_append_left _ later)
      · rcases List.mem_append.mp held with held | same
        · exact Or.inr (List.mem_append_right _ held)
        · exact Or.inl (List.mem_singleton.mp same)
    · exact Or.inr member
  | someFound => exact fun text member => Or.inl member
  | pushFailed _ goesOn =>
    rcases goesOn with ⟨_, rfl⟩ | rfl
    · exact List.forall_mem_nil _
    · exact fun text member => Or.inl member
  | domainSaved goesOn | sitemapDelayAsked _ goesOn | delayAsked _ goesOn =>
    rcases goesOn with rfl | ⟨_, rfl⟩ <;> exact List.forall_mem_nil _
  | _ => exact List.forall_mem_nil _

/-- What a worker has found it had found before, or it is canonical. -/
theorem WorkerMoved.found (laws : UrlLaws crates) (blank : BlankDocument crates)
    {worker after : Worker Url} {input : Input Url}
    (moved : WorkerMoved crates shared worker input next after)
    (asks : worker.asksHttp crates input = true)
    (lists : worker.listsCanonical crates input = true) :
    ∀ text ∈ after.found crates, text ∈ worker.found crates ∨ CanonicalText crates text := by
  cases moved with
  | task moved => exact moved.found laws blank asks lists
  | looped goesOn =>
    rcases goesOn with rfl | rfl <;> exact List.forall_mem_nil _
  | released owed =>
    rcases owed with ⟨_, rfl⟩ | ⟨_, rfl⟩ | ⟨_, _, rfl | rfl⟩ <;> exact List.forall_mem_nil _
  | _ => exact List.forall_mem_nil _

omit [DecidableEq Url] in
/-- A worker pushes what it has found. -/
theorem Worker.found_of_enters {worker : Worker Url} {input : Input Url} :
    ∀ text ∈ worker.enters input, text ∈ worker.found crates := by
  intro text member
  unfold Worker.enters at member
  split at member
  · exact mem_of_mem_effect member
  · cases member

omit [DecidableEq Url] in
/-- The consumer pushes what it has found. -/
theorem Consumer.filtered_of_enters {consumer : Consumer} {action : ServiceAction Url} :
    ∀ text ∈ consumer.enters action, text ∈ consumer.filtered := by
  intro text member
  unfold Consumer.enters at member
  split at member
  · exact mem_of_mem_effect member
  · cases member

theorem Consumer.filtered_eq_nil {consumer : Consumer} (idle : consumer.acking = none) :
    consumer.filtered = [] := by
  cases consumer with
  | pushing id sitemap attempt sitemaps batch => cases idle
  | _ => rfl

/-- A sitemap that the consumer comes to is canonical, or it is no URL. -/
theorem offer_found {service after : StorageService Url} (moved : service.offer crates = some after)
    (lists : service.consumer.listsCanonical crates = true) :
    ∀ text ∈ after.consumer.filtered, CanonicalText crates text := by
  obtain ⟨id, sitemap, sitemaps, batch, offering, outcome⟩ := offer_eq_some crates moved
  rcases outcome with ⟨reason, unparsed, rfl⟩ | ⟨url, parsed, rfl⟩
  · exact List.forall_mem_nil _
  · intro text member
    dsimp only at member
    split at member
    · cases member
    · simp only [Consumer.listsCanonical, offering, parsed, decide_eq_true_eq] at lists
      exact ⟨url, lists, List.mem_singleton.mp member⟩

/-- What the consumer has found it had found before, or it is canonical. -/
theorem serviceStep_found {service after : StorageService Url} {action : ServiceAction Url}
    (moved : serviceStep crates action service = some after)
    (lists : action = .offer → service.consumer.listsCanonical crates = true) :
    ∀ text ∈ after.consumer.filtered,
      text ∈ service.consumer.filtered ∨ CanonicalText crates text := by
  cases serviceStep_moved crates moved with
  | offered => exact fun text member => Or.inr (offer_found moved (lists rfl) text member)
  | groupCreated _ _ idle =>
    rw [Consumer.filtered_eq_nil (Consumer.idle_of_inHand idle).2]
    exact List.forall_mem_nil _
  | readAnswered | acked | ackFailed =>
    rw [Consumer.filtered_eq_nil (Consumer.acking_next _)]
    exact List.forall_mem_nil _
  | dropped _ _ goesOn =>
    rcases goesOn with rfl | rfl
    · exact List.forall_mem_nil _
    · rw [Consumer.filtered_eq_nil (Consumer.acking_next _)]
      exact List.forall_mem_nil _
  | pushed pushing _ goesOn | pushFailed pushing goesOn =>
    rw [pushing]
    rcases goesOn with rfl | rfl
    · exact List.forall_mem_nil _
    · exact fun text member => Or.inl member
  | published | readLost | readFailed | looked => exact fun text member => Or.inl member
  | _ => exact List.forall_mem_nil _

end Parties

/-! ### The steps of the deployment -/

section Steps

variable {crates} {limit : Option (BitVec 64)} {discovery next : Discovery Url n}
  {action : DeploymentAction Url n}

theorem discoveryStep_eq_some
    (moved : discoveryStep crates limit action discovery = some next) :
    deploymentStep crates limit action discovery.deployment = some next.deployment ∧
      next.discovered = discovery.discovered ++ discovery.deployment.discoveredBy action := by
  obtain ⟨deployment, stepped, rfl⟩ := Option.map_eq_some_iff.mp moved
  exact ⟨stepped, rfl⟩

omit [DecidableEq Url] in
/-- What an action pushes as new work has been found before. -/
theorem Discovery.Kept.pushes (kept : discovery.Kept crates) :
    ∀ text ∈ discovery.deployment.discoveredBy action, CanonicalText crates text := by
  intro text member
  cases action with
  | crawl action =>
    cases action with
    | worker id input => exact kept.workers id text (Worker.found_of_enters text member)
    | service action => exact kept.consumer text (Consumer.filtered_of_enters text member)
    | _ => cases member
  | _ => cases member

/-- A step that reads canonical URLs keeps what is found canonical. -/
theorem crawlerStep_found (laws : UrlLaws crates) (blank : BlankDocument crates)
    {action : CrawlerAction Url n} {crawler after : Crawler Url n}
    (workers : ∀ id, (crawler.workers id).FoundCanonical crates)
    (consumer : ∀ text ∈ crawler.shared.service.consumer.filtered, CanonicalText crates text)
    (moved : crawlerStep crates limit action crawler = some after)
    (asks : ∀ id input, action = .worker id input →
      (crawler.workers id).asksHttp crates input = true)
    (reads : ∀ id input, action = .worker id input →
      (crawler.workers id).listsCanonical crates input = true)
    (offers : action = .service .offer →
      crawler.shared.service.consumer.listsCanonical crates = true) :
    (∀ id, (after.workers id).FoundCanonical crates) ∧
      ∀ text ∈ after.shared.service.consumer.filtered, CanonicalText crates text := by
  cases action with
  | worker id input =>
    obtain ⟨⟨shared, worker⟩, stepped, rfl⟩ := Option.map_eq_some_iff.mp moved
    have worked := workerStep_moved stepped
    constructor
    · refine Transition.forall_update workers fun text member => ?_
      rcases worked.found laws blank (asks id input rfl) (reads id input rfl) text member with
        known | canonical
      · exact workers id text known
      · exact canonical
    · rw [show shared.service.consumer = crawler.shared.service.consumer from worked.consumer_eq]
      exact consumer
  | service action =>
    obtain ⟨service, stepped, rfl⟩ := Option.map_eq_some_iff.mp moved
    refine ⟨workers, fun text member => ?_⟩
    have lists : action = .offer → crawler.shared.service.consumer.listsCanonical crates = true :=
      fun same => offers (congrArg CrawlerAction.service same)
    exact (serviceStep_found stepped lists text member).elim (consumer text) id
  | _ =>
    cases crawlerStep_moved crates moved
    exact ⟨workers, consumer⟩

/-- A step that reads canonical URLs keeps what is found and pushed canonical. -/
theorem discoveryStep_kept (laws : UrlLaws crates) (blank : BlankDocument crates)
    (kept : discovery.Kept crates)
    (reads : (discovery.deployment.asksHttp crates action &&
      discovery.deployment.listsCanonical crates action) = true)
    (moved : discoveryStep crates limit action discovery = some next) : next.Kept crates := by
  obtain ⟨stepped, pushed⟩ := discoveryStep_eq_some moved
  obtain ⟨asks, lists⟩ := Bool.and_eq_true_iff.mp reads
  have discovered : ∀ text ∈ next.discovered, CanonicalText crates text := by
    rw [pushed]
    exact fun text member =>
      (List.mem_append.mp member).elim (kept.discovered text) (kept.pushes text)
  cases action with
  | crawl action =>
    obtain ⟨_, _, crawled⟩ := crawlerStep_of_moved stepped
    have found := crawlerStep_found laws blank kept.workers kept.consumer crawled
      (by rintro id input rfl; exact asks) (by rintro id input rfl; exact lists)
      (by rintro rfl; exact lists)
    exact ⟨found.1, found.2, discovered⟩
  | launch input =>
    obtain ⟨⟨shared, launch⟩, launched, same⟩ := Option.map_eq_some_iff.mp stepped
    refine ⟨?_, ?_, discovered⟩
    · rw [← same]
      exact kept.workers
    · rw [← same]
      show ∀ text ∈ shared.service.consumer.filtered, CanonicalText crates text
      rw [(launchStep_aside launched).consumer]
      exact kept.consumer
  | restart startUrl seed =>
    have same := Option.some.inj stepped
    refine ⟨?_, ?_, discovered⟩
    · rw [← same]
      exact fun id => List.forall_mem_nil _
    · rw [← same]
      exact kept.consumer

omit [DecidableEq Url] in
/-- Canonical texts parse to canonical URLs, and differ by more than a fragment. -/
theorem Discovery.Kept.canonical (kept : discovery.Kept crates) : discovery.Canonical crates where
  form text member := by
    obtain ⟨url, canonical, rfl⟩ := kept.discovered text member
    exact ⟨url, crates.url.parse_asStr url, canonical⟩
  apart first known second also url other parsed parsed' same := by
    obtain ⟨url', ⟨_, bare⟩, rfl⟩ := kept.discovered first known
    obtain ⟨other', ⟨_, bare'⟩, rfl⟩ := kept.discovered second also
    obtain rfl : url' = url := Except.ok.inj ((crates.url.parse_asStr url').symm.trans parsed)
    obtain rfl : other' = other :=
      Except.ok.inj ((crates.url.parse_asStr other').symm.trans parsed')
    exact congrArg crates.url.asStr ((bare.symm.trans same).trans bare')

/-- In a run that reads canonical URLs from the sitemaps and the robots.txt files, every URL that is
pushed as new work is http or https and has no fragment, and no two differ in their fragment only.
The links of the pages are read in any form. -/
theorem frontier_canonical (laws : UrlLaws crates) (blank : BlankDocument crates)
    {startUrl seed : Option String} {clock : Instant} {service : StorageService Url}
    (idle : service.consumer.filtered = [])
    (reached : Transition.ReachesWith (discoveryStep crates limit)
      (fun discovery action => (discovery.deployment.asksHttp crates action &&
        discovery.deployment.listsCanonical crates action) = true)
      ⟨Deployment.begin startUrl seed clock service, []⟩ discovery) :
    discovery.Canonical crates := by
  have start : Discovery.Kept crates
      (⟨Deployment.begin startUrl seed clock service, []⟩ : Discovery Url n) := by
    refine ⟨fun _ => List.forall_mem_nil _, ?_, List.forall_mem_nil _⟩
    show ∀ text ∈ service.consumer.filtered, CanonicalText crates text
    rw [idle]
    exact List.forall_mem_nil _
  have kept : discovery.Kept crates :=
    reached.invariant start fun before action after kept reads moved =>
      discoveryStep_kept laws blank kept reads moved
  exact kept.canonical

end Steps

/-! ### The small site -/

/-- Every page of the site links to its own top and to the list, and its sitemap lists the page and
its top. -/
def sampleLinkWeb : Web SampleLink := fun _ url =>
  match url with
  | .sitemap => .answer ⟨200, some (some "text/xml"),
      some "<urlset><loc>https://a.example/</loc><loc>https://a.example/#top</loc></urlset>"⟩
  | _ => .answer ⟨200, some (some "text/html"),
      some "<a href=\"#top\"></a><a href=\"list\"></a>"⟩

def sampleFrontier (seed : String) : Discovery SampleLink 1 where
  deployment := Deployment.begin none (some seed) 0 {
    StorageService.initial CrawlerDb.sample defaultAgentName with
    log := GroupedLog.empty.createGroup
    consumer := .reading }
  discovered := []

/-- The launch notes the seed and pushes it, and then the worker runs. -/
def sampleFrontierRun (inputs : List (Input SampleLink)) : List (DeploymentAction SampleLink 1) :=
  [.launch (.redis .answered), .launch (.rpc DbFaults.none .answered),
    .launch (.redis .answered)] ++ inputs.map fun input => .crawl (.worker (Fin.last 0) input)

/-- The worker takes the seed, is granted its domain and asks whether it is allowed. -/
def sampleLinkTake : List (Input SampleLink) :=
  [.proceed, .redis .answered, .proceed, .proceed, .rpc DbFaults.none .answered]

/-- The worker downloads a page and pushes the one link it finds. -/
def samplePageLinks : List (Input SampleLink) :=
  sampleLinkTake ++ [.rpc DbFaults.none .answered, .web sampleLinkWeb none, .redis .answered,
    .proceed, .rpc DbFaults.none .answered, .proceed, .redis .answered]

/-- The worker downloads the sitemap and pushes the two URLs it lists. -/
def sampleSitemapLinks : List (Input SampleLink) :=
  sampleLinkTake ++ [.proceed, .proceed, .rpc DbFaults.none .answered, .web sampleLinkWeb none,
    .rpc DbFaults.none .answered, .rpc DbFaults.none .answered, .proceed, .redis .answered]

theorem blankDocument_sampleLink : BlankDocument sampleLinkCrates := by
  constructor <;> decide +kernel

/-- Of the links of the page the one to its own top is left out, and the list is pushed. -/
theorem frontier_canonical_sample : ∃ discovery : Discovery SampleLink 1,
    Transition.run (discoveryStep sampleLinkCrates none) (sampleFrontierRun samplePageLinks)
      (sampleFrontier "https://a.example/") = some discovery ∧
    discovery.discovered = ["https://a.example/list"] ∧
    discovery.Canonical sampleLinkCrates := by
  have state : (Transition.runWith (discoveryStep sampleLinkCrates none)
      (fun discovery action => (discovery.deployment.asksHttp sampleLinkCrates action &&
        discovery.deployment.listsCanonical sampleLinkCrates action) = true)
      (sampleFrontierRun samplePageLinks) (sampleFrontier "https://a.example/")).map
        Discovery.discovered = some ["https://a.example/list"] := by
    decide +kernel
  obtain ⟨discovery, ran, found⟩ := Option.map_eq_some_iff.mp state
  exact ⟨discovery, Transition.run_of_runWith ran, found,
    frontier_canonical urlLaws_sample blankDocument_sampleLink rfl
      (Transition.reachesWith_of_runWith ran)⟩

/-- The sitemap lists a page and the top of it, and both are pushed. -/
theorem sitemap_fragment_pushed : ∃ discovery : Discovery SampleLink 1,
    Transition.ReachesWith (discoveryStep sampleLinkCrates none)
      (fun discovery action => discovery.deployment.asksHttp sampleLinkCrates action = true)
      (sampleFrontier "https://a.example/sitemap.xml") discovery ∧
    ¬ discovery.Canonical sampleLinkCrates := by
  have state : (Transition.runWith (discoveryStep sampleLinkCrates none)
      (fun discovery action => discovery.deployment.asksHttp sampleLinkCrates action = true)
      (sampleFrontierRun sampleSitemapLinks) (sampleFrontier "https://a.example/sitemap.xml")).map
        Discovery.discovered = some ["https://a.example/", "https://a.example/#top"] := by
    decide +kernel
  obtain ⟨discovery, ran, found⟩ := Option.map_eq_some_iff.mp state
  refine ⟨discovery, Transition.reachesWith_of_runWith ran, fun canonical => ?_⟩
  have first : "https://a.example/" ∈ discovery.discovered := by
    rw [found]
    exact List.mem_cons_self
  have second : "https://a.example/#top" ∈ discovery.discovered := by
    rw [found]
    exact List.mem_cons_of_mem _ List.mem_cons_self
  have same := canonical.apart _ first _ second .page .top rfl rfl rfl
  exact absurd same (by decide)

end PoliteCrawler
