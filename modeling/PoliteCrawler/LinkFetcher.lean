/-
This file models the HTTP side of a worker: the client with its redirect policy,
and the three downloads.

What the network answers is an input: for every attempt a map from URLs to
replies. The client follows up to five redirects, and the response keeps the URL
it finally came from, without a fragment.
-/

import PoliteCrawler.Common
import Mathlib.Data.List.Infix

namespace PoliteCrawler

/-! ### The client -/

/-- A response. `contentType` is `none` without the header, and `some none` when its value is not
text; `body` is `none` when reading it fails. -/
structure Response where
  status : Nat
  contentType : Option (Option String)
  body : Option String
  deriving DecidableEq, Repr

def Response.isSuccess (response : Response) : Bool := 200 ≤ response.status ∧ response.status < 300

def notFound : Nat := 404

inductive Reply (Url : Type)
  | failed
  | redirect (target : Url)
  | answer (response : Response)

/-- What the network answers in each attempt of a request. -/
abbrev Web (Url : Type) := Nat → Url → Reply Url

/-- `Policy::limited(5)` -/
def maxRedirects : Nat := 5

variable {Url : Type}

/-- One request, with the redirects it may still follow. -/
def follow (replies : Url → Reply Url) : Nat → Url → Outcome (Url × Response)
  | left, url =>
    match replies url, left with
    | .failed, _ => .error (.error .network)
    | .answer response, _ => .ok (url, response)
    | .redirect _, 0 => .error (.error .network)
    | .redirect target, left + 1 => follow replies left target

def send (replies : Url → Reply Url) (url : Url) : Outcome (Url × Response) :=
  follow replies maxRedirects url

def fetchAttempts : Nat := 3

/-- The request in up to three attempts. -/
def sendWithRetry (web : Web Url) (url : Url) : Outcome (Url × Response) :=
  withRetry fetchAttempts fun attempt => send (web attempt) url

/-- `error_for_status().unwrap_err()`: an error for the statuses of errors, and a panic for the
others. -/
def statusError {Value : Type} (status : Nat) : Outcome Value :=
  if 400 ≤ status ∧ status < 600 then .error (.error .network) else .error .panicked

def readText (response : Response) : Outcome String :=
  match response.body with
  | some text => .ok text
  | none => .error (.error .network)

/-! ### Text -/

/-- `haystack.contains(needle)` -/
def containsText (haystack needle : String) : Bool := needle.toList <:+: haystack.toList

/-- `text.ends_with(suffix)` -/
def endsWith (text suffix : String) : Bool := suffix.toList <:+ text.toList

/-! ### Downloads -/

/-- A downloaded page. -/
structure NotParsedPageData (Url : Type) where
  url : Url
  content : String

variable (crates : Crates Url)

def badExtensions : List String :=
  [".pdf", ".doc", ".docx", ".xls", ".xlsx", ".ppt", ".pptx", ".zip", ".rar", ".7z", ".tar", ".gz",
    ".png", ".jpg", ".jpeg", ".gif", ".svg", ".ico", ".webp", ".mp3", ".mp4", ".avi", ".mkv", ".css",
    ".js", ".json", ".xml"]

def isBlacklistedExtension (url : Url) : Bool :=
  let path := crates.unicode.toLowercase (crates.url.path url)
  badExtensions.any fun ext => endsWith path ext

def robotListUrl (url : Url) : Outcome Url :=
  match crates.url.domain url with
  | none => .error (.error .urlDoesntContainDomain)
  | some domain =>
    match crates.url.parse (crates.url.scheme url ++ "://" ++ domain) with
    | .error _ => .error (.error .invalidUrl)
    | .ok mainLink =>
      match crates.url.join mainLink "robots.txt" with
      | .error _ => .error (.error .invalidUrl)
      | .ok robotUrl => .ok robotUrl

def getRobotList (replies : Url → Reply Url) (url : Url) : Outcome (Option String) :=
  match robotListUrl crates url with
  | .error abort => .error abort
  | .ok robotUrl =>
    match send replies robotUrl with
    | .error abort => .error abort
    | .ok (_, response) =>
      if response.isSuccess then (readText response).map some
      else if response.status = notFound then .ok none
      else statusError response.status

/-- The header value of a content type that is declared and not HTML. -/
def declaresNonHtml (response : Response) : Bool :=
  match response.contentType with
  | none => false
  | some value =>
    let text := value.getD ""
    !containsText text "text/html" && !containsText text "application/xhtml+xml"

/-- `response.url()`: the client sends no fragment, and the response does not get it back. -/
def responseUrl (final : Url) : Url := crates.url.withoutFragment final

/-- The page of a response. The content type is looked at before the status, and a missing page
keeps the URL that was asked for, with its fragment. -/
def pageOfResponse (asked final : Url) (response : Response) : Outcome (NotParsedPageData Url) :=
  if declaresNonHtml response then .ok ⟨responseUrl crates final, ""⟩
  else if response.isSuccess then
    (readText response).map fun content => ⟨responseUrl crates final, content⟩
  else if response.status = notFound then .ok ⟨asked, ""⟩
  else statusError response.status

def getPage (web : Web Url) (url : Url) : Outcome (NotParsedPageData Url) :=
  if isBlacklistedExtension crates url then .ok ⟨url, ""⟩
  else
    match sendWithRetry web url with
    | .error abort => .error abort
    | .ok (final, response) => pageOfResponse crates url final response

/-- The robots.txt of a domain is parsed here, before the event is published. -/
def getDomainData (web : Web Url) (url : Url) (userAgent : String) : Outcome DomainData :=
  match crates.url.domain url with
  | none => .error (.error .urlDoesntContainDomain)
  | some domainString =>
    match withRetry fetchAttempts fun attempt => getRobotList crates (web attempt) url with
    | .error abort => .error abort
    | .ok none => .ok { domainString, robots := none, delay := 0 }
    | .ok (some robots) =>
      match crates.robotNew userAgent robots with
      | none => .error (.error .robotParseError)
      | some robot => .ok { domainString, robots := some robots, delay := robot.delay.getD 0 }

/-- The content types a sitemap may have. -/
def isXmlMime (contentType : String) : Bool :=
  let lower := crates.unicode.toLowercase contentType
  ["text/xml", "application/xml", "application/x-xml", "+xml", "gzip", "octet-stream"].any
    fun mime => containsText lower mime

def getXmlContent (web : Web Url) (url : Url) : Outcome String :=
  match sendWithRetry web url with
  | .error abort => .error abort
  | .ok (_, response) =>
    match response.contentType with
    | some (some contentType) =>
      if isXmlMime crates contentType then xmlOfResponse response
      else .error (.error .noXMLContent)
    | _ => xmlOfResponse response
where
  xmlOfResponse (response : Response) : Outcome String :=
    if response.isSuccess then readText response
    else if response.status = notFound then .ok ""
    else statusError response.status

/-! ### Where a page comes from -/

/-- What the page of a download is: empty for its extension, for a declared type other than HTML
or because it is not found, or else the content of a successful response. -/
inductive PageOrigin (web : Web Url) (url : Url) : NotParsedPageData Url → Prop
  | listed (listed : isBlacklistedExtension crates url = true) : PageOrigin web url ⟨url, ""⟩
  | nonHtml {final : Url} {response : Response}
      (unlisted : isBlacklistedExtension crates url = false)
      (sent : sendWithRetry web url = .ok (final, response))
      (declared : declaresNonHtml response = true) :
      PageOrigin web url ⟨responseUrl crates final, ""⟩
  | successful {final : Url} {response : Response} (content : String)
      (unlisted : isBlacklistedExtension crates url = false)
      (sent : sendWithRetry web url = .ok (final, response))
      (html : declaresNonHtml response = false) (success : response.isSuccess = true) :
      PageOrigin web url ⟨responseUrl crates final, content⟩
  | missing {final : Url} {response : Response}
      (sent : sendWithRetry web url = .ok (final, response))
      (missing : response.status = notFound) : PageOrigin web url ⟨url, ""⟩

theorem getPage_origin {web : Web Url} {url : Url} {data : NotParsedPageData Url}
    (got : getPage crates web url = .ok data) : PageOrigin crates web url data := by
  unfold getPage at got
  split at got
  · rename_i listed
    cases got
    exact .listed listed
  · rename_i listed
    have unlisted : isBlacklistedExtension crates url = false := by simpa using listed
    split at got
    · cases got
    · rename_i final response sent
      unfold pageOfResponse at got
      split at got
      · rename_i declared
        cases got
        exact .nonHtml unlisted sent declared
      · rename_i declared
        have html : declaresNonHtml response = false := by simpa using declared
        split at got
        · rename_i success
          cases read : readText response with
          | error abort =>
            rw [read] at got
            cases got
          | ok content =>
            rw [read] at got
            cases got
            exact .successful content unlisted sent html success
        · split at got
          · rename_i missing
            cases got
            exact .missing sent missing
          · unfold statusError at got
            split at got <;> cases got

/-- A page has the URL that was asked for, or the one its response came from. -/
theorem getPage_ok {web : Web Url} {url : Url} {data : NotParsedPageData Url}
    (got : getPage crates web url = .ok data) :
    data.url = url ∨ isBlacklistedExtension crates url = false ∧
      ∃ final response, sendWithRetry web url = .ok (final, response) ∧
        (declaresNonHtml response = true ∨ response.isSuccess = true) ∧
          data.url = responseUrl crates final := by
  cases getPage_origin crates got with
  | listed _ => exact Or.inl rfl
  | nonHtml unlisted sent declared => exact Or.inr ⟨unlisted, _, _, sent, Or.inl declared, rfl⟩
  | successful _ unlisted sent _ success =>
    exact Or.inr ⟨unlisted, _, _, sent, Or.inr success, rfl⟩
  | missing _ _ => exact Or.inl rfl

/-- A domain's data is about the domain of the URL. It has no robots text, or one that parses, and
the delay is that of the rules. -/
theorem getDomainData_ok {web : Web Url} {url : Url} {userAgent : String} {data : DomainData}
    (got : getDomainData crates web url userAgent = .ok data) :
    crates.url.domain url = some data.domainString ∧
      (data.robots = none ∧ data.delay = 0 ∨
        ∃ robots robot, data.robots = some robots ∧ crates.robotNew userAgent robots = some robot ∧
          data.delay = robot.delay.getD 0) := by
  unfold getDomainData at got
  split at got
  · cases got
  · rename_i domain found
    split at got
    · cases got
    · cases got
      exact ⟨found, Or.inl ⟨rfl, rfl⟩⟩
    · split at got
      · cases got
      · rename_i robots _ _ robot parsed
        cases got
        exact ⟨found, Or.inr ⟨robots, robot, rfl, parsed, rfl⟩⟩

end PoliteCrawler
