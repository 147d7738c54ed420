/-
This file holds the data the services share and the code outside the repository
that they call.

The first part is the `common` crate: the errors, the answers of an access
check, and the events a worker publishes. A call ends with a value, with a
`CrawlerError`, or in a panic; `Outcome` keeps the three apart.

The second part is the interface of the third-party crates. Each is a structure
of functions, so every result holds for every behaviour of the crate that keeps
the laws listed as fields.
-/

import Mathlib.Algebra.Order.Ring.Int

namespace PoliteCrawler

/-! ### Errors -/

/-- The error kinds of the crawler. -/
inductive CrawlerError
  | network
  | invalidUrl
  | notAllowed
  | dbError
  | robotParseError
  | urlDoesntContainDomain
  | noXMLContent
  | taskQueueError
  | joinError
  | serdeError
  | tonicTransportError
  | grpcError
  | filesError
  deriving DecidableEq, Repr

/-- How a call ends without a value. -/
inductive Abort
  | error (reason : CrawlerError)
  | panicked
  deriving DecidableEq, Repr

/-- The result of a fallible call. -/
abbrev Outcome (Value : Type) := Except Abort Value

/-- The attempts of a retried call from attempt `i` on, with `left` more attempts after it. A
panic is not an error and is not retried. -/
def retryFrom {Value : Type} (operation : Nat → Outcome Value) : Nat → Nat → Outcome Value
  | i, 0 => operation i
  | i, left + 1 =>
    match operation i with
    | .ok value => .ok value
    | .error .panicked => .error .panicked
    | .error (.error _) => retryFrom operation (i + 1) left

/-- Retries an operation up to `attempts` times; the last attempt's result is the result. -/
def withRetry {Value : Type} (attempts : Nat) (operation : Nat → Outcome Value) :
    Outcome Value :=
  retryFrom operation 1 (attempts - 1)

theorem retryFrom_ok {Value : Type} {operation : Nat → Outcome Value} {value : Value} :
    ∀ {i left : Nat}, retryFrom operation i left = .ok value →
      ∃ attempt, operation attempt = .ok value
  | i, 0, done => ⟨i, done⟩
  | i, left + 1, done => by
    unfold retryFrom at done
    split at done
    · rename_i first
      exact ⟨i, first.trans done⟩
    · cases done
    · exact retryFrom_ok done

/-- A retried call returns what one of its attempts returned. -/
theorem withRetry_ok {Value : Type} {attempts : Nat} {operation : Nat → Outcome Value}
    {value : Value} (done : withRetry attempts operation = .ok value) :
    ∃ attempt, operation attempt = .ok value :=
  retryFrom_ok done

/-- A retried call whose first attempt returns a value returns it. -/
theorem withRetry_of_first {Value : Type} {attempts : Nat} {operation : Nat → Outcome Value}
    {value : Value} (first : operation 1 = .ok value) :
    withRetry attempts operation = .ok value := by
  unfold withRetry
  cases attempts - 1 with
  | zero => exact first
  | succ left =>
    unfold retryFrom
    rw [first]

/-! ### Durations -/

/-- The bit pattern of an IEEE single. -/
abbrev F32 := BitVec 32

/-- A `std::time::Duration`, in nanoseconds. -/
abbrev Duration := Nat

/-- A `std::time::Instant`, in nanoseconds of the monotone clock. It has no least value, so a
subtraction does not panic. -/
abbrev Instant := Int

namespace F32

def exponent (value : F32) : Nat := value.toNat / 2 ^ 23 % 2 ^ 8

def fraction (value : F32) : Nat := value.toNat % 2 ^ 23

def isNan (value : F32) : Bool := value.exponent = 255 ∧ value.fraction ≠ 0

/-- The quotient rounded to the nearest integer, ties to even. -/
def roundedQuotient (dividend divisor : Nat) : Nat :=
  let quotient := dividend / divisor
  let rest := dividend % divisor
  if 2 * rest < divisor then quotient
  else if divisor < 2 * rest then quotient + 1
  else if quotient % 2 = 0 then quotient else quotient + 1

/-- `Duration::from_secs_f32`. `none` is its panic: on negative, infinite, NaN and overflowing
seconds. Minus zero is not negative. -/
def toDuration (value : F32) : Option Duration :=
  if value.exponent = 255 then none
  else if value.msb ∧ (value.exponent ≠ 0 ∨ value.fraction ≠ 0) then none
  -- from the exponent of 2 ^ 64 on the whole seconds do not fit in 64 bits
  else if 127 + 64 ≤ value.exponent then none
  else
    let mantissa := if value.exponent = 0 then value.fraction else value.fraction + 2 ^ 23
    let scale := if value.exponent = 0 then 1 else value.exponent
    -- the value is `mantissa * 2 ^ (scale - 150)` seconds
    if 150 ≤ scale then some (mantissa * 2 ^ (scale - 150) * 10 ^ 9)
    else some (roundedQuotient (mantissa * 10 ^ 9) (2 ^ (150 - scale)))

/-- NaN does not convert. -/
theorem toDuration_of_isNan {value : F32} (nan : value.isNan = true) : value.toDuration = none := by
  have top : value.exponent = 255 := (of_decide_eq_true nan).1
  rw [toDuration, if_pos top]

example : toDuration 0x3f800000#32 = some (10 ^ 9) := by decide

end F32

/-! ### Events and answers -/

/-- The answer of an access check. -/
inductive UrlAccess
  | allowed
  | disallowed
  | unknownDomain
  | urlWithoutHost
  deriving DecidableEq, Repr

/-- What a worker learns about a domain. -/
structure DomainData where
  domainString : String
  robots : Option String
  delay : F32
  deriving DecidableEq, Repr

/-- The page fields of a page event. -/
structure ParsedPageSaveData where
  title : Option String
  description : Option String
  cleanText : Option String
  url : String
  deriving DecidableEq, Repr

/-- The fields of a domain event. -/
structure DomainDataSaveData where
  domainString : String
  robots : Option String
  delay : F32
  deriving DecidableEq, Repr

def DomainDataSaveData.fromDomainData (data : DomainData) : DomainDataSaveData where
  domainString := data.domainString
  robots := data.robots
  delay := data.delay

/-- The events of the stream. -/
inductive ParsedData
  | parsedDomain (data : DomainDataSaveData)
  | parsedPage (data : ParsedPageSaveData)
  deriving DecidableEq, Repr

/-! ### The crates the services call -/

/-- Why `Url::parse` fails, as far as the code asks. -/
inductive ParseError
  | relativeUrlWithoutBase
  | other
  deriving DecidableEq, Repr

/-- The `url` crate. `Url` is the type of parsed URLs. -/
structure UrlCrate (Url : Type) where
  parse : String → Except ParseError Url
  asStr : Url → String
  scheme : Url → String
  domain : Url → Option String
  path : Url → String
  join : Url → String → Except ParseError Url
  /-- `set_fragment(None)` -/
  withoutFragment : Url → Url
  /-- A serialized URL parses back to itself. -/
  parse_asStr : ∀ url, parse (asStr url) = .ok url
  /-- The fragment belongs to neither the domain nor the path. -/
  domain_withoutFragment : ∀ url, domain (withoutFragment url) = domain url
  path_withoutFragment : ∀ url, path (withoutFragment url) = path url

/-- The Unicode tables of the standard library. -/
structure Unicode where
  isWhitespace : Char → Bool
  isAlphanumeric : Char → Bool
  toLowercase : String → String

/-- The `simhash` crate. -/
structure SimhashCrate where
  simhash : String → BitVec 64
  simhashStream : List String → BitVec 64

/-- A parsed robots.txt of the `texting_robots` crate. -/
structure Robot where
  allowed : String → Bool
  delay : Option F32
  sitemaps : List String

/-- A node of the `scraper` crate's document tree. Comments, doctypes and processing
instructions are `other`. -/
inductive HtmlNode
  | element (name : String) (attributes : List (String × String)) (children : List HtmlNode)
  | text (contents : String)
  | other

/-- A parsed document: the children of its root. -/
structure Html where
  nodes : List HtmlNode

/-- An event of the `quick_xml` reader. Every event carries its source text. -/
inductive XmlEvent
  | opening (name : String) (source : String)
  | closing (name : String) (source : String)
  | other (source : String)
  deriving DecidableEq, Repr

/-- All third-party functions the services call. -/
structure Crates (Url : Type) where
  url : UrlCrate Url
  unicode : Unicode
  simhash : SimhashCrate
  /-- Whether a Bloom filter that took in the URLs of the list reports the URL as contained. -/
  bloomContains : List Url → Url → Bool
  /-- `Robot::new(agent, body)` -/
  robotNew : String → String → Option Robot
  /-- `serde_json::from_str` -/
  fromJson : String → Option ParsedData
  /-- `serde_json::to_string` -/
  toJson : ParsedData → String
  /-- `Html::parse_document` -/
  parseDocument : String → Html
  /-- The events `quick_xml` reads from a document up to its end or to the first malformed
  point. -/
  readEvents : String → List XmlEvent
  /-- `quick_xml::escape::unescape` -/
  unescape : String → Option String

/-! ### A small web

The crates as they behave on a handful of pages of two sites. Runs on fixed inputs use it. -/

/-- The URLs of the small web. -/
inductive SampleUrl
  | home
  | about
  | secret
  | robots
  | other
  | otherRobots
  deriving DecidableEq, Repr

namespace SampleUrl

def asStr : SampleUrl → String
  | home => "https://a.example/"
  | about => "https://a.example/about"
  | secret => "https://a.example/secret"
  | robots => "https://a.example/robots.txt"
  | other => "https://b.example/"
  | otherRobots => "https://b.example/robots.txt"

def path : SampleUrl → String
  | home => "/"
  | about => "/about"
  | secret => "/secret"
  | robots => "/robots.txt"
  | other => "/"
  | otherRobots => "/robots.txt"

def domain : SampleUrl → String
  | home | about | secret | robots => "a.example"
  | other | otherRobots => "b.example"

def parse (text : String) : Except ParseError SampleUrl :=
  if text = "https://a.example/" then .ok home
  else if text = "https://a.example" then .ok home
  else if text = "https://a.example/about" then .ok about
  else if text = "https://a.example/secret" then .ok secret
  else if text = "https://a.example/robots.txt" then .ok robots
  else if text = "https://b.example/" then .ok other
  else if text = "https://b.example" then .ok other
  else if text = "https://b.example/robots.txt" then .ok otherRobots
  else .error .relativeUrlWithoutBase

def join (base : SampleUrl) (reference : String) : Except ParseError SampleUrl :=
  parse ("https://" ++ base.domain ++ "/" ++ reference)

def crate : UrlCrate SampleUrl where
  parse := parse
  asStr := asStr
  scheme _ := "https"
  domain url := some url.domain
  path := path
  join := join
  withoutFragment url := url
  parse_asStr url := by cases url <;> rfl
  domain_withoutFragment _ := rfl
  path_withoutFragment _ := rfl

end SampleUrl

/-- A domain event of the first site without robots rules, and page events of it. -/
def sampleDomainEvent : ParsedData :=
  .parsedDomain { domainString := "a.example", robots := none, delay := 0x3f800000#32 }

/-- The first site with a crawl delay of five seconds. -/
def sampleSlowDomain : DomainDataSaveData where
  domainString := "a.example"
  robots := some "User-agent: *\nCrawl-delay: 5"
  delay := 0x40a00000#32

/-- The domain event of a site without robots.txt. -/
def sampleNewDomain (domainString : String) : ParsedData :=
  .parsedDomain { domainString, robots := none, delay := 0 }

def samplePage (url : SampleUrl) (text : String) : ParsedPageSaveData where
  title := none
  description := none
  cleanText := some text
  url := url.asStr

def sampleJson : List (ParsedData × String) := [
  (sampleDomainEvent,
    "\x7b\"event_type\":\"ParsedDomain\",\"domain_string\":\"a.example\",\"robots\":null,\"delay\":1.0\x7d"),
  (.parsedPage (samplePage .home ""),
    "\x7b\"event_type\":\"ParsedPage\",\"title\":null,\"description\":null,\"clean_text\":\"\",\"url\":\"https://a.example/\"\x7d"),
  (.parsedPage (samplePage .home "a"),
    "\x7b\"event_type\":\"ParsedPage\",\"title\":null,\"description\":null,\"clean_text\":\"a\",\"url\":\"https://a.example/\"\x7d"),
  (.parsedPage (samplePage .about ""),
    "\x7b\"event_type\":\"ParsedPage\",\"title\":null,\"description\":null,\"clean_text\":\"\",\"url\":\"https://a.example/about\"\x7d"),
  (.parsedPage (samplePage .secret ""),
    "\x7b\"event_type\":\"ParsedPage\",\"title\":null,\"description\":null,\"clean_text\":\"\",\"url\":\"https://a.example/secret\"\x7d"),
  (sampleNewDomain "b.example",
    "\x7b\"event_type\":\"ParsedDomain\",\"domain_string\":\"b.example\",\"robots\":null,\"delay\":0.0\x7d"),
  (sampleNewDomain "a.example",
    "\x7b\"event_type\":\"ParsedDomain\",\"domain_string\":\"a.example\",\"robots\":null,\"delay\":0.0\x7d"),
  (.parsedDomain sampleSlowDomain,
    "\x7b\"event_type\":\"ParsedDomain\",\"domain_string\":\"a.example\",\"robots\":\"User-agent: *\\nCrawl-delay: 5\",\"delay\":5.0\x7d")]

def sampleRobot (agent body : String) : Option Robot :=
  if agent ≠ "EDUCATIONAL_CRAWLER" then none
  else if body = "User-agent: *\nDisallow: /secret" then
    some { allowed := fun path => path ≠ "/secret", delay := none, sitemaps := [] }
  else if body = "User-agent: *\nCrawl-delay: 5" then
    some { allowed := fun _ => true, delay := some 0x40a00000#32, sitemaps := [] }
  else none

/-- A page with a title, a text and a link to the second site. -/
def sampleText : String :=
  "<title>Home</title><p>about rust</p><a href=\"https://b.example/\"></a>"

/-- A document without text, one whose body is a link to the second site, and one that has a title
and a text as well. -/
def sampleDocument (content : String) : Html :=
  let link := HtmlNode.element "a" [("href", "https://b.example/")] []
  if content = "<a href=\"https://b.example/\"></a>" then
    ⟨[.element "html" [] [.element "head" [] [], .element "body" [] [link]]]⟩
  else if content = sampleText then
    ⟨[.element "html" [] [
      .element "head" [] [.element "title" [] [.text "Home"]],
      .element "body" [] [.element "p" [] [.text "about rust"], link]]]⟩
  else ⟨[.element "html" [] [.element "head" [] [], .element "body" [] []]]⟩

def sampleCrates : Crates SampleUrl where
  url := SampleUrl.crate
  unicode := {
    isWhitespace := Char.isWhitespace
    isAlphanumeric := Char.isAlphanum
    toLowercase := fun text => String.ofList (text.toList.map Char.toLower) }
  -- the hash of no feature is zero, that of one feature is the feature's SipHash
  simhash := {
    simhash := fun text => if text = "" then 0 else 0x57af97ecc6dfeb45#64
    simhashStream := fun _ => 0 }
  bloomContains inserted url := url ∈ inserted
  robotNew := sampleRobot
  fromJson payload := (sampleJson.find? fun entry => entry.2 = payload).map Prod.fst
  toJson event := ((sampleJson.find? fun entry => entry.1 = event).map Prod.snd).getD "null"
  parseDocument := sampleDocument
  readEvents _ := []
  unescape text := some text

/-! ### A small site

The crates as they behave on URLs of one site that differ in their fragment, their query or their
scheme. -/

/-- The URLs of the small site. -/
inductive SampleLink
  | page
  | top
  | list
  | sorted
  | sitemap
  | ftp
  deriving DecidableEq, Repr

namespace SampleLink

def asStr : SampleLink → String
  | page => "https://a.example/"
  | top => "https://a.example/#top"
  | list => "https://a.example/list"
  | sorted => "https://a.example/list?sort=asc"
  | sitemap => "https://a.example/sitemap.xml"
  | ftp => "ftp://a.example/"

def scheme : SampleLink → String
  | ftp => "ftp"
  | _ => "https"

def path : SampleLink → String
  | page | top | ftp => "/"
  | list | sorted => "/list"
  | sitemap => "/sitemap.xml"

def query : SampleLink → Option String
  | sorted => some "sort=asc"
  | _ => none

def parse (text : String) : Except ParseError SampleLink :=
  if text = "https://a.example/" then .ok page
  else if text = "https://a.example" then .ok page
  else if text = "https://a.example/#top" then .ok top
  else if text = "https://a.example/list" then .ok list
  else if text = "https://a.example/list?sort=asc" then .ok sorted
  else if text = "https://a.example/sitemap.xml" then .ok sitemap
  else if text = "ftp://a.example/" then .ok ftp
  else .error .relativeUrlWithoutBase

def join (base : SampleLink) (reference : String) : Except ParseError SampleLink :=
  if base = ftp then if reference = "" then .ok ftp else .error .other
  else if reference = "#top" then .ok top
  else if reference = "/" then .ok page
  else if reference = "list" then .ok list
  else .error .other

def withoutFragment : SampleLink → SampleLink
  | top => page
  | link => link

def crate : UrlCrate SampleLink where
  parse := parse
  asStr := asStr
  scheme := scheme
  domain _ := some "a.example"
  path := path
  join := join
  withoutFragment := withoutFragment
  parse_asStr url := by cases url <;> rfl
  domain_withoutFragment _ := rfl
  path_withoutFragment url := by cases url <;> rfl

end SampleLink

/-- Rules against sorted lists, next to those of the small web. -/
def sampleSortRobot (agent body : String) : Option Robot :=
  if agent = "EDUCATIONAL_CRAWLER" ∧ body = "User-agent: *\nDisallow: /*?sort=" then
    some { allowed := fun target => target ≠ "/list?sort=asc", delay := none, sitemaps := [] }
  else sampleRobot agent body

/-- A sitemap that lists the page with and without its fragment, and one whose entry is a CDATA
section. -/
def sampleSitemapEvents (content : String) : List XmlEvent :=
  let loc (source : String) : List XmlEvent :=
    [.opening "loc" "<loc>", .other source, .closing "loc" "</loc>"]
  if content = "<urlset><loc>https://a.example/</loc><loc>https://a.example/#top</loc></urlset>" then
    .opening "urlset" "<urlset>" :: loc "https://a.example/" ++ loc "https://a.example/#top" ++
      [.closing "urlset" "</urlset>"]
  else if content = "<urlset><loc><![CDATA[https://a.example/]]></loc></urlset>" then
    .opening "urlset" "<urlset>" :: loc "<![CDATA[https://a.example/]]>" ++
      [.closing "urlset" "</urlset>"]
  else []

/-- A document without text, and documents whose body has a link to the top of its own page, the
second of them also one to the list. -/
def sampleLinkDocument (content : String) : Html :=
  let top := HtmlNode.element "a" [("href", "#top")] []
  let list := HtmlNode.element "a" [("href", "list")] []
  let body :=
    if content = "<a href=\"#top\"></a>" then [top]
    else if content = "<a href=\"#top\"></a><a href=\"list\"></a>" then [top, list]
    else []
  ⟨[.element "html" [] [.element "head" [] [], .element "body" [] body]]⟩

def sampleLinkCrates : Crates SampleLink where
  url := SampleLink.crate
  unicode := sampleCrates.unicode
  simhash := sampleCrates.simhash
  bloomContains inserted url := url ∈ inserted
  robotNew := sampleSortRobot
  fromJson := sampleCrates.fromJson
  toJson := sampleCrates.toJson
  parseDocument := sampleLinkDocument
  readEvents := sampleSitemapEvents
  unescape text := some text

end PoliteCrawler
