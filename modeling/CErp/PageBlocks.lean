/-
The blocks of a page and what the renderer makes of them (`WebsiteRender`).

A page is a JSON array of blocks.  The renderer skips what it does not know and
writes the rest as pieces of markup; an element it writes in one go, from its start
tag to its end tag, is one `element` here.  An author's text goes through `say` into
the text of an element and through `shown` into an attribute.

Reading one member can throw: that of the table's head.  A form is the caller's to
render, and what it makes of it goes on the page as it is.
-/
import CErp.DoubleText
import CErp.Json
import CErp.WebsiteRender

namespace CErp

open String

namespace WebsiteRender

open Markup DoubleText

/-! ### Reading JSON -/

/-- The bytes of a text. -/
def bytes (s : String) : List Char :=
  s.toList.flatMap fun c => (utf8EncodeChar c).map fun b => Char.ofNat b.toNat

/-- The text of a member, empty if it is none. -/
def str (b : Json) (k : String) : List Char :=
  match b.find? k with
  | some (.str s) => bytes s
  | _ => []

/-- A member that is an array. -/
def array? (b : Json) (k : String) : Option (List Json) :=
  match b.find? k with
  | some (.arr xs) => some xs
  | _ => none

/-- The items of a block that are objects. -/
def objects (xs : List Json) : List Json := xs.filter Json.isObject

/-! ### Videos -/

structure SplitUrl where
  host : List Char
  path : List Char
  query : List Char
  ok : Bool
deriving DecidableEq

/-- What stands before the first `c`, all of a text without one. -/
def before (c : Char) (s : List Char) : List Char := s.takeWhile (· != c)

/-- What stands after the first `c`. -/
def after (c : Char) (s : List Char) : List Char := (s.dropWhile (· != c)).drop 1

/-- What follows the scheme of a URL of the web. -/
def afterScheme (url : List Char) : Option (List Char) :=
  if "https://".toList.isPrefixOf url then some (url.drop 8)
  else if "http://".toList.isPrefixOf url then some (url.drop 7)
  else none

def splitUrl (url : List Char) : SplitUrl :=
  match afterScheme url with
  | none => ⟨[], [], [], false⟩
  | some rest =>
      let query := before '#' (after '?' rest)
      let rest := before '?' rest
      let path := if '/' ∈ rest then rest.dropWhile (· != '/') else ['/']
      let host := before '/' rest
      -- what is before the `@` are credentials, and a port follows the colon
      let host := if '@' ∈ host then after '@' host else host
      let host := lower (before ':' host)
      ⟨host, path, query, host ≠ []⟩

/-- Whether a source may be played: something hosted here, or a video file. -/
def playableFile (raw : List Char) : Bool :=
  let u := trim raw
  if u = [] then false
  else if u.any isControl then false
  else if ¬"//".toList.isPrefixOf u ∧ u.head? = some '/' then true
  else
    let low := lower u
    if (afterScheme low).isNone then false
    else
      let path := low.takeWhile fun c => c != '?' && c != '#'
      4 < path.length ∧ (".mp4".toList.isSuffixOf path ∨ ".webm".toList.isSuffixOf path)

def isIdChar (c : Char) : Bool := c.isAlphanum || c = '_' || c = '-'

def idOk (id : List Char) (maxLen : ℕ) (digitsOnly : Bool) : Bool :=
  id ≠ [] ∧ id.length ≤ maxLen ∧ id.all fun c => if digitsOnly then c.isDigit else isIdChar c

def queryParam (query key : List Char) : List Char :=
  match (query.splitOn '&').find? fun pair => '=' ∈ pair ∧ before '=' pair = key with
  | some pair => after '=' pair
  | none => []

/-- The segment after a known prefix. -/
def segmentAfter (path pre : List Char) : List Char :=
  if pre.isPrefixOf path then before '/' (path.drop pre.length) else []

inductive Provider
  | youtube
  | vimeo
deriving DecidableEq

structure VideoRef where
  provider : Provider
  id : List Char
deriving DecidableEq

def youtubeHosts : List (List Char) :=
  ["youtube.com", "www.youtube.com", "m.youtube.com", "youtu.be", "www.youtube-nocookie.com",
   "youtube-nocookie.com"].map toList

def vimeoHosts : List (List Char) :=
  ["vimeo.com", "www.vimeo.com", "player.vimeo.com"].map toList

def youtubeId (u : SplitUrl) : List Char :=
  if u.host = "youtu.be".toList then segmentAfter u.path "/".toList
  else if "/embed/".toList.isPrefixOf u.path then segmentAfter u.path "/embed/".toList
  else if "/shorts/".toList.isPrefixOf u.path then segmentAfter u.path "/shorts/".toList
  else if "/live/".toList.isPrefixOf u.path then segmentAfter u.path "/live/".toList
  else if u.path = "/watch".toList then queryParam u.query "v".toList
  else []

def vimeoId (u : SplitUrl) : List Char :=
  if "/video/".toList.isPrefixOf u.path then segmentAfter u.path "/video/".toList
  else segmentAfter u.path "/".toList

/-- The video a URL names; `none` is the reference with no provider. -/
def parseVideo (url : List Char) : Option VideoRef :=
  let u := splitUrl url
  if ¬u.ok then none
  else if u.host ∈ youtubeHosts then
    if idOk (youtubeId u) 24 false then some ⟨.youtube, youtubeId u⟩ else none
  else if u.host ∈ vimeoHosts then
    if idOk (vimeoId u) 24 true then some ⟨.vimeo, vimeoId u⟩ else none
  else none

def Provider.embedUrl : Provider → List Char
  | youtube => "https://www.youtube-nocookie.com/embed/".toList
  | vimeo => "https://player.vimeo.com/video/".toList

def videoEmbedUrl (v : VideoRef) : List Char := v.provider.embedUrl ++ v.id

/-! ### Maps -/

/-- The point of a map, where both coordinates are numbers on the globe. -/
def coordinates (latS lonS : List Char) : Option (Double × Double) :=
  match stod latS, stod lonS with
  | some lat, some lon =>
      if (-90 ≤ lat.value ∧ lat.value ≤ 90) ∧ -180 ≤ lon.value ∧ lon.value ≤ 180 then
        some (lat, lon)
      else none
  | _, _ => none

/-- Half the side of the box of a map. -/
def margin : Double := .ofRat (8 / 1000)

def commaList (xs : List (List Char)) : List Char := [','].intercalate xs

def bbox (lat lon : Double) : List Char :=
  commaList [fixed 5 (lon.sub margin), fixed 5 (lat.sub margin), fixed 5 (lon.add margin),
    fixed 5 (lat.add margin)]

def mark (lat lon : Double) : List Char := commaList [fixed 5 lat, fixed 5 lon]

def mapUrl (lat lon : Double) : List Char :=
  "https://www.openstreetmap.org/export/embed.html?bbox=".toList ++ bbox lat lon ++
    "&layer=mapnik&marker=".toList ++ mark lat lon

def hexd (n : ℕ) : Char := (Nat.digitChar n).toUpper

/-- A byte in the query of a URL. -/
def encChar (c : Char) : List Char :=
  if c.isAlphanum ∨ c ∈ ['-', '_', '.', '~'] then [c]
  else if c = ' ' then ['+']
  else ['%', hexd (c.toNat / 16), hexd (c.toNat % 16)]

def enc (q : List Char) : List Char := q.flatMap encChar

/-! ### Writing -/

def attr (name value : String) : Attr := ⟨name.toList, value.toList⟩

def cls (value : String) : Attr := attr "class" value

/-- An attribute with an author's text. -/
def shown (name : String) (s : List Char) : Attr := ⟨name.toList, esc s⟩

/-- An attribute with one that has no value written before it: in the text of both
the name of the second has the first and a space in front. -/
def flagged (flag : String) (a : Attr) : Attr := ⟨flag.toList ++ ' ' :: a.name, a.value⟩

def start (t : String) (attrs : List Attr) : Piece := .startTag t.toList attrs false

def stop (t : String) : Piece := .endTag t.toList

/-- An element without an end tag. -/
def alone (t : String) (attrs : List Attr) : Piece := .startTag t.toList attrs true

def element (t : String) (attrs : List Attr) (body : List Piece) : List Piece :=
  start t attrs :: (body ++ [stop t])

/-- An author's text. -/
def say (s : List Char) : Piece := .text (esc s)

/-- An element with an author's text in it, unless that is empty. -/
def saying (t : String) (attrs : List Attr) (s : List Char) : List Piece :=
  if s = [] then [] else element t attrs [say s]

/-- A link with an author's text and address, unless it has no text or the address
is not safe. -/
def link (attrs : List Attr) (text href : List Char) : List Piece :=
  if text ≠ [] ∧ safeUrl href false then element "a" (attrs ++ [shown "href" href]) [say text]
  else []

/-! ### Blocks -/

def level (b : Json) : List Char :=
  if str b "level" ∈ ["1".toList, "2".toList, "3".toList] then str b "level" else "2".toList

def heading (b : Json) : List Piece :=
  [.startTag ('h' :: level b) [cls "w-h"] false, say (str b "text"), .endTag ('h' :: level b)]

/-- `std::getline`: the lines of a text, none after its last newline. -/
def getlines (t : List Char) : List (List Char) :=
  let pieces := t.splitOn '\n'
  if pieces.getLast? = some [] then pieces.dropLast else pieces

/-- A line without the carriage return at its end. -/
def chomp (line : List Char) : List Char :=
  if line.getLast? = some '\r' then line.dropLast else line

def flush (para : List Piece) : List Piece :=
  if para.isEmpty then [] else element "p" [cls "w-p"] para

/-- The lines that are left, and the paragraph as far as it is written. -/
def paragraphs : List (List Char) → List Piece → List Piece
  | [], para => flush para
  | line :: lines, para =>
      if trim (chomp line) = [] then flush para ++ paragraphs lines []
      else
        let breaks := if para.isEmpty then [] else [alone "br" []]
        paragraphs lines (para ++ breaks ++ [say (chomp line)])

def text (b : Json) : List Piece := paragraphs (getlines (str b "text")) []

def caption (b : Json) : List Piece := saying "figcaption" [] (str b "caption")

def image (b : Json) : List Piece :=
  let src := str b "src"
  if safeUrl src true then
    element "figure" [cls "w-fig"]
      (alone "img" [shown "src" src, shown "alt" (str b "alt"), attr "loading" "lazy"] :: caption b)
  else []

def button (b : Json) : List Piece :=
  let href := str b "href"
  if safeUrl href false then
    element "p" [cls "w-btn-wrap"]
      (element "a" [cls "w-btn", shown "href" href, attr "rel" "noopener"]
        [say (str b "text")])
  else []

def divider (_ : Json) : List Piece := [alone "hr" [cls "w-hr"]]

/-- A block that is an element around its items. -/
def listed (t : String) (attrs : List Attr) (item : Json → List Piece) (b : Json) : List Piece :=
  match array? b "items" with
  | some items => element t attrs ((objects items).flatMap item)
  | none => []

/-- The same, where no items make no element. -/
def listedSome (t : String) (attrs : List Attr) (item : Json → List Piece) (b : Json) :
    List Piece :=
  match array? b "items" with
  | some items =>
      if items.isEmpty then [] else element t attrs ((objects items).flatMap item)
  | none => []

def column (c : Json) : List Piece :=
  element "div" [cls "w-col"]
    (saying "h3" [cls "w-col-h"] (str c "title") ++ saying "p" [cls "w-p"] (str c "text"))

def columns : Json → List Piece := listed "div" [cls "w-cols"] column

def hero (b : Json) : List Piece :=
  let ct := str b "cta_text"
  let ch := str b "cta_href"
  let st := str b "alt_text"
  let sh := str b "alt_href"
  let links :=
    if ct ≠ [] ∧ safeUrl ch false ∨ st ≠ [] ∧ safeUrl sh false then
      element "p" [cls "w-hero-cta"]
        (link [cls "w-btn"] ct ch ++ link [cls "w-btn-ghost"] st sh)
    else []
  element "section" [cls "w-hero"]
    (saying "p" [cls "w-hero-eyebrow"] (str b "eyebrow") ++
      element "h1" [cls "w-hero-h"] [say (str b "headline")] ++
      saying "p" [cls "w-hero-sub"] (str b "subheadline") ++ links)

def featured (c : Json) : Bool :=
  match c.find? "featured" with
  | some (.bool feat) => feat
  | _ => false

def feature (f : Json) : List Piece :=
  match f with
  | .str s => element "li" [] [say (bytes s)]
  | _ => []

def plan (c : Json) : List Piece :=
  let price :=
    if str c "price" = [] then []
    else
      element "p" [cls "w-plan-price"]
        (say (str c "price") :: saying "span" [cls "w-plan-per"] (str c "period"))
  let features :=
    match array? c "features" with
    | some fs => element "ul" [cls "w-plan-feats"] (fs.flatMap feature)
    | none => []
  let ct := str c "cta_text"
  let ch := str c "cta_href"
  let cta :=
    if ct ≠ [] ∧ safeUrl ch false then
      element "p" [cls "w-plan-cta"] (link [cls "w-btn"] ct ch)
    else []
  element "div" [cls (if featured c then "w-plan is-feat" else "w-plan")]
    (saying "span" [cls "w-plan-badge"] (str c "badge") ++
      element "h3" [cls "w-plan-name"] [say (str c "name")] ++
      saying "p" [cls "w-plan-size"] (str c "size") ++ price ++ features ++ cta)

def pricing : Json → List Piece := listed "div" [cls "w-plans"] plan

def stepItem (c : Json) : List Piece :=
  element "li" [cls "w-step"]
    (element "h3" [cls "w-step-h"] [say (str c "title")] ++ saying "p" [cls "w-p"] (str c "text"))

def steps : Json → List Piece := listed "ol" [cls "w-steps"] stepItem

def question (c : Json) : List Piece :=
  if str c "q" = [] then []
  else
    element "details" [cls "w-faq-i"]
      (element "summary" [] [say (str c "q")] ++ element "p" [cls "w-p"] [say (str c "a")])

def faq : Json → List Piece := listed "div" [cls "w-faq"] question

def reference (c : Json) : List Piece :=
  let nm := str c "name"
  let logo := str c "logo"
  let image :=
    if logo ≠ [] ∧ safeUrl logo true then
      [alone "img" [cls "w-ref-logo", shown "src" logo, shown "alt" nm, attr "loading" "lazy"]]
    else []
  if nm = [] then []
  else
    element "li" [cls "w-ref"]
      (image ++ element "span" [cls "w-ref-name"] [say nm] ++
        saying "span" [cls "w-ref-note"] (str c "note"))

def references : Json → List Piece := listed "ul" [cls "w-refs"] reference

/-- The attributes of a link that opens on its own. -/
def blankTarget : List Attr := [attr "rel" "noopener noreferrer", attr "target" "_blank"]

def mapFrame (lat lon : Double) (label : List Char) : List Piece :=
  let mk := mark lat lon
  -- between the two numbers of the link stands an ampersand, already escaped
  let href : Attr := ⟨"href".toList, "https://www.openstreetmap.org/?mlat=".toList ++
    esc (before ',' mk) ++ "&amp;mlon=".toList ++ esc (after ',' mk)⟩
  element "div" [cls "w-map"]
    (element "iframe" [shown "src" (mapUrl lat lon), attr "title" "Map", attr "loading" "lazy",
        attr "referrerpolicy" "no-referrer", attr "sandbox" "allow-scripts allow-same-origin",
        attr "style" "border:0;width:100%;height:340px"] [] ++
      element "p" [cls "w-map-link"] (element "a" (href :: blankTarget) [say label]))

def mapLink (q label : List Char) : List Piece :=
  let href : Attr :=
    ⟨"href".toList, "https://www.openstreetmap.org/search?query=".toList ++ esc (enc q)⟩
  element "p" [cls "w-map-link"]
    (element "a" (cls "w-btn-ghost" :: href :: blankTarget)
      [say label, .text " &mdash; ".toList, say q])

def map (b : Json) : List Piece :=
  let q := str b "query"
  let label := if str b "label" = [] then "Open in maps".toList else str b "label"
  let latS := str b "lat"
  let lonS := str b "lon"
  match (if latS ≠ [] ∧ lonS ≠ [] then coordinates latS lonS else none) with
  | some (lat, lon) => mapFrame lat lon label
  | none => if q ≠ [] ∧ q.length ≤ 200 then mapLink q label else []

def videoFrame (v : VideoRef) (cap : List Char) : List Piece :=
  element "div" [cls "w-video-frame"]
    (element "iframe" [shown "src" (videoEmbedUrl v),
      shown "title" (if cap = [] then "Video".toList else cap), attr "loading" "lazy",
      attr "referrerpolicy" "no-referrer",
      attr "allow" "accelerometer; clipboard-write; encrypted-media; picture-in-picture",
      flagged "allowfullscreen"
        (attr "sandbox" "allow-scripts allow-same-origin allow-presentation allow-popups")] [])

def videoFile (src poster : List Char) : List Piece :=
  let sources :=
    if safeUrl poster true then
      [flagged "playsinline" (shown "poster" poster), shown "src" src]
    else [flagged "playsinline" (shown "src" src)]
  element "video" (cls "w-video-el" :: flagged "controls" (attr "preload" "metadata") :: sources) []

def video (b : Json) : List Piece :=
  let src := str b "src"
  let cap := str b "caption"
  match parseVideo src with
  | some v => element "figure" [cls "w-video"] (videoFrame v cap ++ caption b)
  | none =>
      if playableFile src then
        element "figure" [cls "w-video"] (videoFile src (str b "poster") ++ caption b)
      else []

def galleryItem (g : Json) : List Piece :=
  let src := str g "src"
  if safeUrl src true then
    element "figure" [cls "w-gal-i"]
      (alone "img" [shown "src" src, shown "alt" (str g "alt"), attr "loading" "lazy"] :: caption g)
  else []

def gallery : Json → List Piece := listedSome "div" [cls "w-gal"] galleryItem

def quote (b : Json) : List Piece :=
  let who := str b "author"
  let role := str b "role"
  let footer :=
    if who ≠ [] ∨ role ≠ [] then
      element "footer" []
        (element "span" [cls "w-quote-who"] [say who] ++ saying "span" [cls "w-quote-role"] role)
    else []
  if str b "text" = [] then []
  else
    element "blockquote" [cls "w-quote"] (element "p" [] [say (str b "text")] ++ footer)

def stat (s : Json) : List Piece :=
  element "div" [cls "w-stat"]
    (element "dt" [cls "w-stat-v"] [say (str s "value")] ++
      element "dd" [cls "w-stat-l"] [say (str s "label")])

def stats : Json → List Piece := listedSome "dl" [cls "w-stats"] stat

def cta (b : Json) : List Piece :=
  if str b "headline" = [] then []
  else
    element "aside" [cls "w-cta"]
      (element "div" [cls "w-cta-t"]
          (element "p" [cls "w-cta-h"] [say (str b "headline")] ++
            saying "p" [cls "w-cta-s"] (str b "text")) ++
        link [cls "w-btn"] (str b "cta_text") (str b "cta_href"))

def spacer (b : Json) : List Piece :=
  let s := str b "size"
  element "div" [cls (if s = "small".toList then "w-sp-s"
    else if s = "large".toList then "w-sp-l" else "w-sp-m")] []

/-! ### Tables -/

/-- Whether a table has a head: it has unless it says otherwise, and it may only say
so by a truth value. -/
def hasHead (b : Json) : Except String Bool :=
  match b.find? "header" with
  | none => .ok true
  | some (.bool header) => .ok header
  | some j =>
      .error ("[json.exception.type_error.302] type must be boolean, but is " ++ j.typeName)

def cell (th : Bool) (c : Json) : List Piece :=
  let s := match c with
    | .str s => bytes s
    | _ => []
  element (if th then "th" else "td") [] [say s]

def tableRow (th : Bool) (cells : List Json) : List Piece :=
  (if th then [start "thead" [], start "tr" []] else [start "tr" []]) ++ cells.flatMap (cell th) ++
    if th then [stop "tr", stop "thead", start "tbody" []] else [stop "tr"]

/-- The rows that are left, and whether one of them would be the first. -/
def tableRows (head : Bool) : Bool → List Json → List Piece
  | _, [] => []
  | first, r :: rows =>
      match array? r "cells" with
      | some cells => tableRow (first && head) cells ++ tableRows head false rows
      | none => tableRows head first rows

def tableOf (head : Bool) (rows : List Json) : List Piece :=
  start "div" [cls "w-table-wrap"] :: start "table" [cls "w-table"] ::
    (tableRows head true rows ++ [stop "tbody", stop "table", stop "div"])

def table (b : Json) : Except String (List Piece) :=
  match array? b "items" with
  | some rows => if rows.isEmpty then .ok [] else (hasHead b).map fun head => tableOf head rows
  | none => .ok []

/-! ### The page -/

/-- The rendering of the form a slug names, if the caller has one. -/
abbrev FormResolver := Option (List Char → List Char)

def form (resolver : FormResolver) (b : Json) : List Piece :=
  match resolver with
  | some render => if str b "slug" = [] then [] else [.text (render (str b "slug"))]
  | none => []

/-- What comes of raw markup; the loop over it ends, see `turns_ends`. -/
def sanitized (html : List Char) : List Piece :=
  ((turns html.length html).getD []).map Turn.piece

def rawHtml (b : Json) : List Piece :=
  element "div" [cls "w-raw"] (sanitized (str b "html"))

/-- The blocks that are made of an author's texts only. -/
def textBlocks : List (String × (Json → List Piece)) :=
  [("heading", heading), ("text", text), ("image", image), ("button", button),
   ("divider", divider), ("columns", columns), ("hero", hero), ("pricing", pricing),
   ("steps", steps), ("faq", faq), ("references", references), ("map", map), ("video", video),
   ("gallery", gallery), ("quote", quote), ("stats", stats), ("cta", cta), ("spacer", spacer)]

def isType (b : Json) (type : String) : Bool := str b "type" = type.toList

/-- One block; of an unknown type it is nothing. -/
def block (resolver : FormResolver) (b : Json) : Except String (List Piece) :=
  if isType b "table" then table b
  else if isType b "form" then .ok (form resolver b)
  else if isType b "html" then .ok (rawHtml b)
  else
    match textBlocks.find? fun r => isType b r.1 with
    | some r => .ok (r.2 b)
    | none => .ok []

/-- The blocks of a page: the objects of an array. -/
def blocksOf (page : Json) : List Json :=
  match page with
  | .arr bs => objects bs
  | _ => []

/-- `WebsiteRender::blocks`. -/
def blocks (page : Json) (resolver : FormResolver) : Except String (List Char) :=
  ((blocksOf page).mapM (block resolver)).map fun pss => html pss.flatten

end WebsiteRender

end CErp
