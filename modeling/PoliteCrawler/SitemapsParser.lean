/-
This file models the sitemap parser of a worker: it downloads sitemaps and reads
the URLs of their `loc` elements.
-/

import PoliteCrawler.HtmlParser

namespace PoliteCrawler

variable {Url : Type} (crates : Crates Url)

namespace SitemapsParser

/-- The source texts of the `loc` elements. Inside one, `depth` counts the elements of that name
opened within it, and `raw` is the source read so far; an element without its end is an error and
contributes nothing. -/
def locTexts : List XmlEvent → Option (Nat × String) → List String
  | [], _ => []
  | .opening name _ :: rest, none => locTexts rest (if name = "loc" then some (0, "") else none)
  | _ :: rest, none => locTexts rest none
  | .opening name source :: rest, some (depth, raw) =>
    locTexts rest (some (if name = "loc" then depth + 1 else depth, raw ++ source))
  | .closing name source :: rest, some (depth, raw) =>
    if name = "loc" then
      match depth with
      | 0 => raw :: locTexts rest none
      | depth + 1 => locTexts rest (some (depth, raw ++ source))
    else locTexts rest (some (depth, raw ++ source))
  | .other source :: rest, some (depth, raw) => locTexts rest (some (depth, raw ++ source))

/-- The URL of a `loc`'s source text. -/
def locUrl (raw : String) : Option Url :=
  (crates.unescape raw).bind fun unescaped =>
    let urlStr := trim crates.unicode unescaped
    if urlStr.isEmpty then none
    else
      match crates.url.parse urlStr with
      | .ok url => some url
      | .error _ => none

/-- The reader is taken to end at the first malformed point. The source's loop prints an error of
`read_text` there, inside a `loc`, and reads on. -/
def parseSitemap (content : String) : List Url :=
  (locTexts (crates.readEvents content) none).filterMap (locUrl crates)

/-- `SitemapsParser::parse`. A sitemap that cannot be downloaded contributes nothing; a panic ends
the parse. -/
def parse (web : Web Url) (sitemaps : List String) : Outcome (List Url) :=
  parseAll (sitemaps.filterMap fun sitemap => (crates.url.parse sitemap).toOption)
where
  parseAll : List Url → Outcome (List Url)
    | [] => .ok []
    | sitemap :: rest =>
      match getXmlContent crates web sitemap with
      | .error .panicked => .error .panicked
      | .error (.error _) => parseAll rest
      | .ok xml => (parseAll rest).map fun urls => parseSitemap crates xml ++ urls

end SitemapsParser

end PoliteCrawler
