/-
Video references against the URLs that name them.

A URL of the web is put together from its parts, `WebUrl`, and `splitUrl` takes it
apart again.  It looks for a fragment behind a query only, so without a query the
fragment stays on the path, and without a path it may even bring a host.

The embed URL of a reference names the reference, and `video_refs` says which of the
accepted URLs name their video whatever is added to them.
-/
import CErp.FairBlocks

namespace CErp

open List Option

namespace WebsiteRender

/-! ### Cutting a text -/

section Cutting

variable {c : Char} {a : List Char}

lemma before_append_of_notMem (h : c ∉ a) (b : List Char) :
    before c (a ++ b) = a ++ before c b := by
  apply takeWhile_append_of_pos
  intro d hd
  exact bne_iff_ne.mpr fun heq => h (heq ▸ hd)

lemma before_cons_self (c : Char) (s : List Char) : before c (c :: s) = [] := by
  simp [before]

lemma before_of_notMem (h : c ∉ a) : before c a = a := by
  have happend := before_append_of_notMem h []
  rw [append_nil] at happend
  exact happend.trans (append_nil a)

/-- Every text with a `c` is one without, the `c`, and the rest. -/
lemma eq_before_after (h : c ∈ a) : a = before c a ++ c :: after c a := by
  induction a with
  | nil => cases h
  | cons d a ih =>
      unfold before after at *
      by_cases hd : d = c
      · subst hd
        simp
      · have hmem := mem_of_ne_of_mem (Ne.symm hd) h
        have hskip : (d != c) = true := bne_iff_ne.mpr hd
        rw [takeWhile_cons, dropWhile_cons, if_pos hskip, if_pos hskip, cons_append, ← ih hmem]

lemma notMem_before (c : Char) (a : List Char) : c ∉ before c a := by
  intro h
  have hall := all_takeWhile (p := (· != c)) (l := a)
  rw [List.all_eq_true] at hall
  exact absurd (hall c h) (by simp)

lemma before_append_of_mem (h : c ∈ a) (b : List Char) : before c (a ++ b) = before c a := by
  rw [eq_before_after h, append_assoc, before_append_of_notMem (notMem_before c a),
    before_append_of_notMem (notMem_before c a), cons_append, before_cons_self, before_cons_self]

lemma after_append (h : c ∉ a) (b : List Char) : after c (a ++ b) = after c b := by
  unfold after
  rw [dropWhile_append_of_pos]
  intro d hd
  exact bne_iff_ne.mpr fun heq => h (heq ▸ hd)

lemma after_cons_self (c : Char) (s : List Char) : after c (c :: s) = s := by
  simp [after]

lemma isPrefixOf_append {l : List Char} (h : c ∉ l) (t : List Char) :
    l.isPrefixOf (a ++ c :: t) = l.isPrefixOf a := by
  induction l generalizing a with
  | nil => rfl
  | cons d l ih =>
      rw [mem_cons, not_or] at h
      cases a with
      | nil =>
          have hne : (d == c) = false := beq_false_of_ne (Ne.symm h.1)
          rw [nil_append, isPrefixOf_cons_cons, hne]
          rfl
      | cons e a =>
          rw [cons_append, isPrefixOf_cons_cons, isPrefixOf_cons_cons, ih h.2]

end Cutting

/-! ### The URLs of the web -/

/-- A text without some characters. -/
abbrev Clear (cs : List Char) : Type := { s : List Char // ∀ c ∈ cs, c ∉ s }

variable {s : List Char}

lemma clear_of_all {cs : List Char} (h : (cs.all fun c => !s.contains c) = true) :
    ∀ c ∈ cs, c ∉ s := by
  intro c hc hmem
  have hnot := List.all_eq_true.mp h c hc
  rw [contains_iff_mem.mpr hmem] at hnot
  cases hnot

/-- A part of a URL, after the character that leads to it. -/
def part (lead : Char) {cs : List Char} : Option (Clear cs) → List Char
  | none => []
  | some s => lead :: s.val

lemma notMem_part {cs : List Char} {c lead : Char} (hlead : c ≠ lead) (hc : c ∈ cs)
    (s : Option (Clear cs)) : c ∉ part lead s := by
  cases s with
  | none => exact not_mem_nil
  | some s =>
      rw [part, mem_cons, not_or]
      exact ⟨hlead, s.property c hc⟩

/-- A URL of the web.  The path is what follows its first slash; the last `@` of the
authority ends the credentials. -/
structure WebUrl where
  secure : Bool
  credentials : Option (Clear ['/', '?', '#'])
  host : Clear ['/', '?', '#', '@', ':']
  port : Option (Clear ['/', '?', '#', '@'])
  path : Option (Clear ['?', '#'])
  query : Option (Clear ['#'])
  fragment : Option (Clear [])

namespace WebUrl

def scheme (u : WebUrl) : List Char := if u.secure then "https://".toList else "http://".toList

/-- The credentials with the `@` that ends them. -/
def login (u : WebUrl) : List Char :=
  match u.credentials with
  | none => []
  | some w => w.val ++ ['@']

def authority (u : WebUrl) : List Char := u.login ++ u.host.val ++ part ':' u.port

/-- The query and the fragment. -/
def tail (u : WebUrl) : List Char := part '?' u.query ++ part '#' u.fragment

def text (u : WebUrl) : List Char := u.scheme ++ (u.authority ++ part '/' u.path ++ u.tail)

/-- One parameter more, before the fragment. -/
def addParameter (u : WebUrl) (p : Clear ['#']) : WebUrl :=
  { u with
    query := match u.query with
      | none => some p
      | some q => some ⟨q.val ++ '&' :: p.val, by
          have hq := q.property
          have hp := p.property
          simp_all⟩ }

/-- The host as it is read: behind the first `@`, up to a colon. -/
def hostRead (u : WebUrl) : List Char :=
  lower (before ':' (match u.credentials with
    | none => u.host.val
    | some w => after '@' (w.val ++ '@' :: u.host.val)))

variable (u : WebUrl)

lemma notMem_authority {c : Char} (h : c ∈ ['/', '?', '#']) : c ∉ u.authority := by
  have hat : c ≠ '@' := by
    rintro rfl
    revert h
    decide
  have hcolon : c ≠ ':' := by
    rintro rfl
    revert h
    decide
  have hlogin : c ∉ u.login := by
    unfold login
    split
    · exact not_mem_nil
    · next w _ =>
        rw [mem_append, not_or]
        exact ⟨w.property c h, by simpa using hat⟩
  have hhost : c ∉ u.host.val := u.host.property c (mem_append_left ['@', ':'] h)
  have hport : c ∉ part ':' u.port := notMem_part hcolon (mem_append_left ['@'] h) u.port
  unfold authority
  rw [mem_append, mem_append, not_or, not_or]
  exact ⟨⟨hlogin, hhost⟩, hport⟩

/-- The host is read behind the first `@` of the authority, and before a colon. -/
lemma hostRead_eq : lower (before ':'
    (if '@' ∈ u.authority then after '@' u.authority else u.authority)) = u.hostRead := by
  have hport : ∀ s : List Char, before ':' (s ++ part ':' u.port) = before ':' s := by
    intro s
    by_cases hs : ':' ∈ s
    · exact before_append_of_mem hs _
    · rw [before_append_of_notMem hs, before_of_notMem hs]
      cases u.port with
      | none => exact append_nil s
      | some d => rw [part, before_cons_self, append_nil]
  unfold hostRead authority login
  cases hcredentials : u.credentials with
  | none =>
      rw [if_neg, nil_append, hport]
      rw [nil_append, mem_append, not_or]
      exact ⟨u.host.property '@' (by decide), notMem_part (by decide) (by decide) u.port⟩
  | some w =>
      have hlogin : w.val ++ ['@'] ++ u.host.val ++ part ':' u.port =
          (w.val ++ '@' :: u.host.val) ++ part ':' u.port := by
        simp
      have hafter : ∀ b, after '@' (w.val ++ '@' :: u.host.val ++ b) =
          after '@' (w.val ++ '@' :: u.host.val) ++ b := by
        intro b
        have hmem : '@' ∈ w.val ++ '@' :: u.host.val := by simp
        conv_lhs => rw [eq_before_after hmem, append_assoc,
          after_append (notMem_before _ _), cons_append, after_cons_self]
      rw [hlogin, if_pos (by simp), hafter, hport]

lemma afterScheme_text :
    afterScheme u.text = some (u.authority ++ part '/' u.path ++ u.tail) := by
  unfold text scheme
  cases u.secure <;> rfl

/-- What the splitter makes of a URL with a path. -/
lemma splitUrl_text {p : Clear ['?', '#']} (hp : u.path = some p) :
    splitUrl u.text = ⟨u.hostRead, '/' :: p.val ++ before '?' u.tail,
      before '#' (after '?' u.tail), u.hostRead ≠ []⟩ := by
  have hfront : '?' ∉ u.authority ++ '/' :: p.val := by
    rw [mem_append, mem_cons, not_or, not_or]
    exact ⟨u.notMem_authority (by decide), by decide, p.property '?' (by decide)⟩
  have hslash := u.notMem_authority (c := '/') (by decide)
  have hmem : '/' ∈ u.authority ++ '/' :: p.val ++ before '?' u.tail := by simp
  have hpath : (u.authority ++ '/' :: p.val ++ before '?' u.tail).dropWhile (· != '/') =
      '/' :: p.val ++ before '?' u.tail := by
    rw [append_assoc, dropWhile_append_of_pos]
    · rfl
    · intro d hd
      exact bne_iff_ne.mpr fun heq => hslash (heq ▸ hd)
  have hauthority : before '/' (u.authority ++ '/' :: p.val ++ before '?' u.tail) = u.authority := by
    rw [append_assoc, before_append_of_notMem hslash, cons_append, before_cons_self, append_nil]
  unfold splitUrl
  rw [u.afterScheme_text, hp]
  dsimp only [part]
  rw [before_append_of_notMem hfront, after_append hfront, if_pos hmem, hpath, hauthority,
    u.hostRead_eq]

/-- Without a path, and with a query, nothing is read but a host. -/
lemma splitUrl_text_root (hp : u.path = none) (hq : u.query ≠ none) :
    (splitUrl u.text).path = ['/'] := by
  obtain ⟨q, hq⟩ := ne_none_iff_exists'.mp hq
  have hnone : before '?' u.tail = [] := by
    unfold tail
    rw [hq, part, cons_append, before_cons_self]
  have hslash := u.notMem_authority (c := '/') (by decide)
  unfold splitUrl
  rw [u.afterScheme_text, hp]
  dsimp only [part]
  rw [append_nil, before_append_of_notMem (u.notMem_authority (by decide)), hnone,
    append_nil, if_neg hslash]

end WebUrl

/-! ### Where the id stands -/

/-- The service a host belongs to. -/
def service (host : List Char) : Option Provider :=
  if host ∈ youtubeHosts then some .youtube
  else if host ∈ vimeoHosts then some .vimeo
  else none

/-- What stands before the id on the path; `none` where the id is in the query. -/
def idLead (host path : List Char) : Option (List Char) :=
  if host ∈ youtubeHosts then
    if host = "youtu.be".toList then some "/".toList
    else if "/embed/".toList.isPrefixOf path then some "/embed/".toList
    else if "/shorts/".toList.isPrefixOf path then some "/shorts/".toList
    else if "/live/".toList.isPrefixOf path then some "/live/".toList
    else none
  else if "/video/".toList.isPrefixOf path then some "/video/".toList
  else some "/".toList

def idIn (host path query : List Char) : List Char :=
  match idLead host path with
  | some lead => segmentAfter path lead
  | none => if path = "/watch".toList then queryParam query "v".toList else []

lemma youtubeId_eq {u : SplitUrl} (h : u.host ∈ youtubeHosts) :
    youtubeId u = idIn u.host u.path u.query := by
  unfold youtubeId idIn idLead
  rw [if_pos h]
  split_ifs <;> rfl

lemma vimeoId_eq {u : SplitUrl} (h : u.host ∉ youtubeHosts) :
    vimeoId u = idIn u.host u.path u.query := by
  unfold vimeoId idIn idLead
  rw [if_neg h]
  split_ifs <;> rfl

/-- An id of a provider. -/
def ValidId (p : Provider) (id : List Char) : Prop := idOk id 24 (p = .vimeo) = true

lemma splitUrl_ok (url : List Char) : (splitUrl url).ok = decide ((splitUrl url).host ≠ []) := by
  unfold splitUrl
  split <;> rfl

lemma parseVideo_eq_some_iff {url : List Char} {v : VideoRef} : parseVideo url = some v ↔
    service (splitUrl url).host = some v.provider ∧
      idIn (splitUrl url).host (splitUrl url).path (splitUrl url).query = v.id ∧
      ValidId v.provider v.id := by
  obtain ⟨provider, id⟩ := v
  unfold parseVideo ValidId
  dsimp only
  rw [splitUrl_ok]
  generalize splitUrl url = s
  by_cases hempty : s.host = []
  · have hnone : service s.host = none := by
      rw [hempty]
      rfl
    rw [if_pos (by simpa using hempty), hnone]
    constructor
    · intro h
      cases h
    · rintro ⟨h, -⟩
      cases h
  rw [if_neg (by simpa using hempty)]
  have haccepts : ∀ p, service s.host = some p →
      ((if idOk (idIn s.host s.path s.query) 24 (p = .vimeo) then
          some (⟨p, idIn s.host s.path s.query⟩ : VideoRef) else none) = some ⟨provider, id⟩ ↔
        service s.host = some provider ∧ idIn s.host s.path s.query = id ∧
          idOk id 24 (provider = .vimeo) = true) := by
    intro p hp
    rw [hp]
    constructor
    · intro h
      split at h
      · next hok =>
          cases h
          exact ⟨rfl, rfl, hok⟩
      · cases h
    · rintro ⟨hprovider, rfl, hok⟩
      cases hprovider
      rw [if_pos hok]
  by_cases hyoutube : s.host ∈ youtubeHosts
  · have hservice : service s.host = some .youtube := if_pos hyoutube
    rw [if_pos hyoutube, youtubeId_eq hyoutube]
    exact haccepts .youtube hservice
  rw [if_neg hyoutube]
  by_cases hvimeo : s.host ∈ vimeoHosts
  · have hservice : service s.host = some .vimeo := by
      rw [service, if_neg hyoutube, if_pos hvimeo]
    rw [if_pos hvimeo, vimeoId_eq hyoutube]
    exact haccepts .vimeo hservice
  · have hservice : service s.host = none := by
      rw [service, if_neg hyoutube, if_neg hvimeo]
    rw [if_neg hvimeo, hservice]
    constructor
    · intro h
      cases h
    · rintro ⟨h, -⟩
      cases h

lemma ne_nil_of_validId {p : Provider} {id : List Char} (h : ValidId p id) : id ≠ [] := by
  rintro rfl
  cases p <;> cases h

lemma notMem_of_validId {p : Provider} {id : List Char} (h : ValidId p id) {c : Char}
    (hc : isIdChar c = false) : c ∉ id := by
  intro hmem
  rw [isIdChar_of_idOk h c hmem] at hc
  cases hc

/-- A path that starts with a slash starts with what leads to its id. -/
lemma idLead_isPrefix {host path lead : List Char} (h : idLead host path = some lead)
    (hpath : path.head? = some '/') : ∃ rest, path = lead ++ rest := by
  have hslash : ∃ rest, path = "/".toList ++ rest := by
    rcases path with - | ⟨c, rest⟩
    · cases hpath
    · cases hpath
      exact ⟨rest, rfl⟩
  have hlead : ∀ l : List Char, l.isPrefixOf path = true → ∃ rest, path = l ++ rest := by
    intro l hl
    obtain ⟨rest, hrest⟩ := List.isPrefixOf_iff_prefix.mp hl
    exact ⟨rest, hrest.symm⟩
  unfold idLead at h
  split_ifs at h with _ _ hembed hshorts hlive hvideo
  all_goals cases h
  · exact hslash
  · exact hlead _ hembed
  · exact hlead _ hshorts
  · exact hlead _ hlive
  · exact hlead _ hvideo
  · exact hslash

/-- A fragment on the path does not change what leads to the id. -/
lemma idLead_fragment (host path t : List Char) :
    idLead host (path ++ '#' :: t) = idLead host path := by
  unfold idLead
  rw [isPrefixOf_append (by decide), isPrefixOf_append (by decide), isPrefixOf_append (by decide),
    isPrefixOf_append (by decide)]

lemma segmentAfter_append (lead rest : List Char) :
    segmentAfter (lead ++ rest) lead = before '/' rest := by
  rw [segmentAfter, if_pos (List.isPrefixOf_iff_prefix.mpr (prefix_append lead rest)), drop_left]

/-- An id in the query is found however the query goes on. -/
lemma queryParam_append {q key : List Char} (h : queryParam q key ≠ []) (p : List Char) :
    queryParam (q ++ '&' :: p) key = queryParam q key := by
  unfold queryParam at h ⊢
  rw [splitOn_append_cons_self, find?_append]
  split at h
  · next pair hpair => rw [hpair, some_or]
  · exact absurd rfl h

/-- The path goes on behind the id. -/
def GoesOn (host path : List Char) : Prop :=
  ∃ lead, idLead host path = some lead ∧ '/' ∈ path.drop lead.length

section Path

variable {host path query : List Char} {provider : Provider}

/-- Where the path goes on, neither a query nor a fragment changes the id. -/
lemma idIn_of_goesOn (hpath : path.head? = some '/') (h : GoesOn host path) :
    ∃ id, ∀ q, idIn host path q = id ∧ ∀ t, idIn host (path ++ '#' :: t) q = id := by
  obtain ⟨lead, hlead, hslash⟩ := h
  obtain ⟨rest, rfl⟩ := idLead_isPrefix hlead hpath
  rw [drop_left] at hslash
  refine ⟨before '/' rest, fun q => ⟨?_, fun t => ?_⟩⟩
  · rw [idIn, hlead]
    exact segmentAfter_append lead rest
  · rw [idIn, idLead_fragment, hlead]
    dsimp only
    rw [append_assoc, segmentAfter_append, before_append_of_mem hslash]

/-- With a fragment on the path, there is an id only where the path goes on. -/
lemma goesOn_of_validId {t : List Char} (hpath : path.head? = some '/')
    (h : ValidId provider (idIn host (path ++ '#' :: t) query)) : GoesOn host path := by
  unfold idIn at h
  rw [idLead_fragment] at h
  rcases hlead : idLead host path with - | lead
  · rw [hlead] at h
    rw [if_neg] at h
    · exact absurd rfl (ne_nil_of_validId h)
    · intro heq
      have hmem : '#' ∈ path ++ '#' :: t := by simp
      rw [heq] at hmem
      revert hmem
      decide
  · rw [hlead] at h
    dsimp only at h
    obtain ⟨rest, rfl⟩ := idLead_isPrefix hlead hpath
    refine ⟨lead, hlead, ?_⟩
    rw [drop_left]
    by_contra hslash
    rw [append_assoc, segmentAfter_append, before_append_of_notMem hslash] at h
    refine notMem_of_validId h (c := '#') (by decide) ?_
    simp [before]

/-- An id in the query is there however the query goes on. -/
lemma idIn_append (h : idIn host path query ≠ []) (p : List Char) :
    idIn host path (query ++ '&' :: p) = idIn host path query := by
  unfold idIn at h ⊢
  split
  · rfl
  · next hlead =>
      rw [hlead] at h
      split
      · next hwatch =>
          rw [if_pos hwatch] at h
          exact queryParam_append h p
      · rfl

/-- An id without a query is there with every query. -/
lemma idIn_of_noQuery (h : idIn host path [] ≠ []) (p : List Char) :
    idIn host path p = idIn host path [] := by
  unfold idIn at h ⊢
  split
  · rfl
  · next hlead =>
      rw [hlead] at h
      split
      · next hwatch =>
          rw [if_pos hwatch] at h
          exact absurd rfl h
      · rfl

end Path

/-! ### What may be added to a URL -/

/-- A URL names its video well: its host is the provider's, and it names the same
video with a fragment, one parameter more, credentials or a port. -/
structure NamesWell (u : WebUrl) (v : VideoRef) : Prop where
  host : service (lower u.host.val) = some v.provider
  fragment : u.fragment = none → ∀ f, parseVideo { u with fragment := some f }.text = some v
  parameter : ∀ p, parseVideo (u.addParameter p).text = some v
  credentials : u.credentials = none → ∀ w : Clear ['/', '?', '#'], '@' ∉ w.val →
    parseVideo { u with credentials := some w }.text = some v
  port : u.port = none → ∀ d, parseVideo { u with port := some d }.text = some v

namespace WebUrl

variable {u : WebUrl} {v : VideoRef}

lemma parseVideo_text_iff {p : Clear ['?', '#']} (hp : u.path = some p) :
    parseVideo u.text = some v ↔ service u.hostRead = some v.provider ∧
      idIn u.hostRead ('/' :: p.val ++ before '?' u.tail) (before '#' (after '?' u.tail)) = v.id ∧
        ValidId v.provider v.id := by
  rw [parseVideo_eq_some_iff, u.splitUrl_text hp]

lemma tail_query {q : Clear ['#']} (h : u.query = some q) :
    before '?' u.tail = [] ∧ before '#' (after '?' u.tail) = q.val := by
  unfold tail
  rw [h, part, cons_append, before_cons_self, after_cons_self,
    before_append_of_notMem (q.property '#' (by decide))]
  refine ⟨rfl, ?_⟩
  cases u.fragment with
  | none => exact append_nil _
  | some f => rw [part, before_cons_self, append_nil]

lemma tail_fragment {f : Clear []} (hq : u.query = none) (h : u.fragment = some f) :
    before '?' u.tail = '#' :: before '?' f.val := by
  unfold tail
  rw [hq, h]
  exact before_append_of_notMem (a := ['#']) (by decide) f.val

lemma tail_none (hq : u.query = none) (h : u.fragment = none) :
    before '?' u.tail = [] ∧ before '#' (after '?' u.tail) = [] := by
  unfold tail
  rw [hq, h]
  exact ⟨rfl, rfl⟩

variable {path : Clear ['?', '#']}

/-- One parameter more leaves the id of a URL with a path. -/
lemma parseVideo_addParameter (hpath : u.path = some path) (h : parseVideo u.text = some v)
    (p : Clear ['#']) : parseVideo (u.addParameter p).text = some v := by
  obtain ⟨hservice, hid, hvalid⟩ := (parseVideo_text_iff hpath).mp h
  have hne : v.id ≠ [] := ne_nil_of_validId hvalid
  rw [parseVideo_text_iff (u := u.addParameter p) hpath]
  refine ⟨hservice, ?_, hvalid⟩
  show idIn u.hostRead _ _ = v.id
  cases hquery : u.query with
  | some q =>
      obtain ⟨hpathTail, hqueryRead⟩ := tail_query hquery
      rw [hpathTail, hqueryRead] at hid
      have hadded : (u.addParameter p).query = some ⟨q.val ++ '&' :: p.val, by
          have hq := q.property
          have hp := p.property
          simp_all⟩ := by
        unfold addParameter
        rw [hquery]
      obtain ⟨hpathTail', hqueryRead'⟩ := tail_query hadded
      rw [hpathTail', hqueryRead', idIn_append (hid ▸ hne), hid]
  | none =>
      have hadded : (u.addParameter p).query = some p := by
        unfold addParameter
        rw [hquery]
      obtain ⟨hpathTail', hqueryRead'⟩ := tail_query hadded
      rw [hpathTail', hqueryRead', append_nil]
      cases hfragment : u.fragment with
      | none =>
          obtain ⟨hpathTail, hqueryRead⟩ := tail_none hquery hfragment
          rw [hpathTail, hqueryRead, append_nil] at hid
          rw [idIn_of_noQuery (hid ▸ hne), hid]
      | some f =>
          rw [tail_fragment hquery hfragment] at hid
          have hgoes : GoesOn u.hostRead ('/' :: path.val) := goesOn_of_validId rfl (hid ▸ hvalid)
          obtain ⟨id, hall⟩ := idIn_of_goesOn rfl hgoes
          rw [(hall _).1, ← hid, (hall _).2]

/-- What is read of the host, the path and the query names the video. -/
lemma parseVideo_congr {t : WebUrl} (hpath : u.path = some path) (hpath' : t.path = some path)
    (hhost : t.hostRead = u.hostRead) (htail : t.tail = u.tail) :
    parseVideo t.text = parseVideo u.text := by
  apply ext
  intro v
  rw [parseVideo_text_iff hpath, parseVideo_text_iff hpath', hhost, htail]

lemma hostRead_of_noAt (h : ∀ w, u.credentials = some w → '@' ∉ w.val) :
    u.hostRead = lower u.host.val := by
  have hcolon : ':' ∉ u.host.val := u.host.property ':' (by decide)
  unfold hostRead
  cases hcredentials : u.credentials with
  | none => exact congrArg lower (before_of_notMem hcolon)
  | some w =>
      dsimp only
      rw [after_append (h w hcredentials), after_cons_self, before_of_notMem hcolon]

/-- Without a path, one parameter more is too many. -/
lemma parseVideo_root (hpath : u.path = none) (p : Clear ['#']) :
    parseVideo (u.addParameter p).text ≠ some v := by
  intro h
  obtain ⟨-, hid, hvalid⟩ := parseVideo_eq_some_iff.mp h
  have hquery : (u.addParameter p).query ≠ none := by
    unfold addParameter
    cases u.query <;> exact some_ne_none _
  rw [(u.addParameter p).splitUrl_text_root hpath hquery] at hid
  refine ne_nil_of_validId hvalid ?_
  rw [← hid]
  generalize (splitUrl (u.addParameter p).text).host = host
  unfold idIn idLead
  by_cases hyoutube : host ∈ youtubeHosts
  · rw [if_pos hyoutube]
    by_cases hshort : host = "youtu.be".toList
    · rw [if_pos hshort]
      rfl
    · rw [if_neg hshort]
      rfl
  · rw [if_neg hyoutube]
    rfl

/-- A fragment leaves the id where a query keeps it off the path, or where the path
goes on. -/
lemma parseVideo_fragment_iff (hpath : u.path = some path) (h : parseVideo u.text = some v)
    (hfragment : u.fragment = none) :
    (∀ f, parseVideo { u with fragment := some f }.text = some v) ↔
      (u.query = none → GoesOn u.hostRead ('/' :: path.val)) := by
  obtain ⟨hservice, hid, hvalid⟩ := (parseVideo_text_iff hpath).mp h
  have hadded : ∀ f, parseVideo { u with fragment := some f }.text = some v ↔ _ := fun f =>
    parseVideo_text_iff (u := { u with fragment := some f }) hpath
  rcases hquery : u.query with - | q
  · have htail : ∀ f, _ := fun f =>
      tail_fragment (u := { u with fragment := some f }) hquery rfl
    rw [hquery] at hadded
    constructor
    · intro hall _
      obtain ⟨-, hid', -⟩ := (hadded ⟨[], fun _ _ => not_mem_nil⟩).mp (hall _)
      rw [← hquery, htail] at hid'
      exact goesOn_of_validId rfl (hid' ▸ hvalid)
    · intro hgoes f
      obtain ⟨id, hsame⟩ := idIn_of_goesOn rfl (hgoes rfl)
      obtain ⟨hpathTail, hqueryRead⟩ := tail_none hquery hfragment
      rw [hpathTail, hqueryRead, append_nil, (hsame _).1] at hid
      rw [hadded, ← hquery, htail]
      exact ⟨hservice, ((hsame _).2 _).trans hid, hvalid⟩
  · obtain ⟨hpathTail, hqueryRead⟩ := tail_query hquery
    rw [hpathTail, hqueryRead] at hid
    constructor
    · intro _ hnone
      cases hnone
    · intro _ f
      obtain ⟨hpathTail', hqueryRead'⟩ := tail_query (u := { u with fragment := some f }) hquery
      rw [← hquery, hadded, hpathTail', hqueryRead']
      exact ⟨hservice, hid, hvalid⟩

/-- **When an accepted URL names its video well**: it has a path, what is read as its
host is of the provider of its host, and a fragment finds a query or a fragment
before it, or a path that goes on. -/
theorem namesWell_iff (h : parseVideo u.text = some v) :
    NamesWell u v ↔ service (lower u.host.val) = service u.hostRead ∧ ∃ path, u.path = some path ∧
        (u.fragment = none → u.query = none → GoesOn u.hostRead ('/' :: path.val)) := by
  cases hpath : u.path with
  | none =>
      constructor
      · intro hwell
        exact absurd (hwell.parameter ⟨[], fun _ _ => not_mem_nil⟩) (parseVideo_root hpath _)
      · rintro ⟨-, path, hnone, -⟩
        cases hnone
  | some path =>
      obtain ⟨hservice, -, -⟩ := (parseVideo_text_iff hpath).mp h
      constructor
      · intro hwell
        refine ⟨hwell.host.trans hservice.symm, path, rfl, ?_⟩
        intro hfragment
        exact (parseVideo_fragment_iff hpath h hfragment).mp (hwell.fragment hfragment)
      · rintro ⟨hhost, path', hsame, hgoes⟩
        cases hsame
        constructor
        · rw [hhost, hservice]
        · intro hfragment
          exact (parseVideo_fragment_iff hpath h hfragment).mpr (hgoes hfragment)
        · exact parseVideo_addParameter hpath h
        · intro hnone w hw
          have hread : ({ u with credentials := some w } : WebUrl).hostRead = u.hostRead := by
            rw [hostRead_of_noAt, hostRead_of_noAt]
            · intro w' hw'
              rw [hnone] at hw'
              cases hw'
            · intro w' hw'
              cases hw'
              exact hw
          rw [parseVideo_congr (t := { u with credentials := some w }) hpath hpath hread rfl, h]
        · intro _ d
          rw [parseVideo_congr (t := { u with port := some d }) hpath hpath rfl rfl, h]

/-! ### Every accepted text is a URL -/

lemma notMem_parts {c lead : Char} (hmem : lead ∈ s) (h : c ∉ s) :
    c ∉ before lead s ∧ c ∉ after lead s := by
  rw [eq_before_after hmem, mem_append, mem_cons, not_or, not_or] at h
  exact ⟨h.1, h.2.2⟩

/-- A text is cut before the first of a character. -/
lemma exists_cut (lead : Char) (cs : List Char) (h : ∀ c ∈ cs, c ∉ s) :
    ∃ (front : List Char) (o : Option (Clear cs)), s = front ++ part lead o ∧ lead ∉ front ∧
      ∀ c, c ∉ s → c ∉ front := by
  by_cases hmem : lead ∈ s
  · refine ⟨before lead s, some ⟨after lead s, ?_⟩, eq_before_after hmem, notMem_before _ _, ?_⟩
    · intro c hc
      exact (notMem_parts hmem (h c hc)).2
    · intro c hc
      exact (notMem_parts hmem hc).1
  · exact ⟨s, none, (append_nil s).symm, hmem, fun _ hc => hc⟩

/-- The last `@` of an authority ends its credentials. -/
lemma exists_login (h : ∀ c ∈ ['/', '?', '#'], c ∉ s) :
    ∃ (w : Option (Clear ['/', '?', '#'])) (back : List Char),
      s = (match w with | none => [] | some w => w.val ++ ['@']) ++ back ∧ '@' ∉ back ∧
        ∀ c, c ∉ s → c ∉ back := by
  by_cases hmem : '@' ∈ s
  · have hrev : '@' ∈ s.reverse := mem_reverse.mpr hmem
    have hsplit := congrArg List.reverse (eq_before_after hrev)
    rw [reverse_reverse, reverse_append, reverse_cons] at hsplit
    have hparts : ∀ c, c ∉ s → c ∉ (after '@' s.reverse).reverse ∧
        c ∉ (before '@' s.reverse).reverse := by
      intro c hc
      rw [mem_reverse, mem_reverse]
      rw [← mem_reverse] at hc
      exact (notMem_parts hrev hc).symm
    refine ⟨some ⟨(after '@' s.reverse).reverse, fun c hc => (hparts c (h c hc)).1⟩,
      (before '@' s.reverse).reverse, hsplit, ?_, fun c hc => (hparts c hc).2⟩
    rw [mem_reverse]
    exact notMem_before _ _
  · exact ⟨none, s, rfl, hmem, fun _ hc => hc⟩

lemma exists_text {url rest : List Char} (h : afterScheme url = some rest) :
    ∃ u : WebUrl, u.text = url := by
  obtain ⟨secure, hurl⟩ : ∃ secure : Bool,
      url = (if secure then "https://".toList else "http://".toList) ++ rest := by
    unfold afterScheme at h
    split_ifs at h with hsecure hplain
    · cases h
      obtain ⟨s, rfl⟩ := List.isPrefixOf_iff_prefix.mp hsecure
      exact ⟨true, rfl⟩
    · cases h
      obtain ⟨s, rfl⟩ := List.isPrefixOf_iff_prefix.mp hplain
      exact ⟨false, rfl⟩
  obtain ⟨beforeFragment, fragment, hrest, hhash, -⟩ :=
    exists_cut '#' [] (s := rest) (fun _ hc => nomatch hc)
  obtain ⟨beforeQuery, query, hquery, hmark, hclear⟩ :=
    exists_cut '?' ['#'] (s := beforeFragment) (by simpa using hhash)
  obtain ⟨authority, path, hpath, hslash, hclear'⟩ :=
    exists_cut '/' ['?', '#'] (s := beforeQuery) (by simpa using ⟨hmark, hclear _ hhash⟩)
  obtain ⟨credentials, back, hlogin, hat, hclear''⟩ := exists_login (s := authority)
    (by simpa using ⟨hslash, hclear' _ hmark, hclear' _ (hclear _ hhash)⟩)
  have hback : ∀ c ∈ ['/', '?', '#', '@'], c ∉ back := by
    simpa using ⟨hclear'' _ hslash, hclear'' _ (hclear' _ hmark),
      hclear'' _ (hclear' _ (hclear _ hhash)), hat⟩
  obtain ⟨host, port, hport, hcolon, hclear⟩ := exists_cut ':' ['/', '?', '#', '@'] hback
  have hhost : ∀ c ∈ ['/', '?', '#', '@', ':'], c ∉ host := by
    intro c hc
    rcases mem_append.mp (show c ∈ ['/', '?', '#', '@'] ++ [':'] from hc) with hc | hc
    · exact hclear c (hback c hc)
    · cases mem_singleton.mp hc
      exact hcolon
  refine ⟨⟨secure, credentials, ⟨host, hhost⟩, port, path, query, fragment⟩, ?_⟩
  unfold text scheme WebUrl.authority login tail
  rw [hurl, hrest, hquery, hpath, hlogin, hport]
  simp only [append_assoc]

/-- A host and a path. -/
def page (host : Clear ['/', '?', '#', '@', ':']) (path : Clear ['?', '#']) : WebUrl :=
  ⟨true, none, host, none, some path, none, none⟩

lemma text_page (host : Clear ['/', '?', '#', '@', ':']) (path : Clear ['?', '#']) :
    (page host path).text = "https://".toList ++ host.val ++ '/' :: path.val := by
  unfold text authority login tail page
  simp only [part, scheme, if_true, nil_append, append_nil, append_assoc]

lemma parseVideo_page {host : Clear ['/', '?', '#', '@', ':']} :
    parseVideo (page host path).text = some v ↔ service (lower host.val) = some v.provider ∧
      idIn (lower host.val) ('/' :: path.val) [] = v.id ∧ ValidId v.provider v.id := by
  obtain ⟨hpathTail, hqueryRead⟩ := tail_none (u := page host path) rfl rfl
  rw [parseVideo_text_iff rfl, hpathTail, hqueryRead, append_nil,
    hostRead_of_noAt (u := page host path) (by rintro w ⟨⟩)]
  rfl

/-- The embed URL of a reference names the reference. -/
lemma parseVideo_videoEmbedUrl {v : VideoRef} (h : ValidId v.provider v.id) :
    parseVideo (videoEmbedUrl v) = some v := by
  have hslash : '/' ∉ v.id := notMem_of_validId h (by decide)
  have hmark : '?' ∉ v.id := notMem_of_validId h (by decide)
  have hhash : '#' ∉ v.id := notMem_of_validId h (by decide)
  -- the URL has the id on its path, behind what leads to it
  have hpage : ∀ (p : Provider) (host : Clear ['/', '?', '#', '@', ':']) (lead : List Char),
      v.provider = p → (∀ c ∈ ['?', '#'], c ∉ lead) →
      p.embedUrl = "https://".toList ++ host.val ++ '/' :: lead →
      service (lower host.val) = some p →
      idLead (lower host.val) ('/' :: (lead ++ v.id)) = some ('/' :: lead) →
      parseVideo (videoEmbedUrl v) = some v := by
    rintro p host lead rfl hlead hurl hservice hid
    have hpath : ∀ c ∈ ['?', '#'], c ∉ lead ++ v.id := by
      intro c hc
      rw [mem_append, not_or]
      refine ⟨hlead c hc, ?_⟩
      rcases mem_pair.mp hc with rfl | rfl
      · exact hmark
      · exact hhash
    have htext : videoEmbedUrl v = (page host ⟨lead ++ v.id, hpath⟩).text := by
      rw [text_page, videoEmbedUrl, hurl, append_assoc, cons_append]
    rw [htext, parseVideo_page, idIn, hid]
    exact ⟨hservice, (segmentAfter_append ('/' :: lead) v.id).trans (before_of_notMem hslash), h⟩
  obtain ⟨provider, id⟩ := v
  cases provider with
  | youtube =>
      refine hpage .youtube ⟨"www.youtube-nocookie.com".toList, clear_of_all rfl⟩ "embed/".toList rfl
        (clear_of_all rfl) (by decide +kernel) (by decide +kernel) ?_
      rw [idLead, if_pos (by decide +kernel), if_neg (by decide +kernel), if_pos]
      · decide +kernel
      · exact List.isPrefixOf_iff_prefix.mpr (prefix_append "/embed/".toList id)
  | vimeo =>
      refine hpage .vimeo ⟨"player.vimeo.com".toList, clear_of_all rfl⟩ "video/".toList rfl
        (clear_of_all rfl) (by decide +kernel) (by decide +kernel) ?_
      rw [idLead, if_neg (by decide +kernel), if_pos]
      · decide +kernel
      · exact List.isPrefixOf_iff_prefix.mpr (prefix_append "/video/".toList id)

end WebUrl

/-- **Video references and URLs.**  The embed URL of a reference names it; every
accepted text is a URL of the web; and when an accepted URL names its video well. -/
theorem video_refs (u : WebUrl) (v : VideoRef) :
    (ValidId v.provider v.id → parseVideo (videoEmbedUrl v) = some v) ∧
    (∀ url, parseVideo url = some v → ∃ u : WebUrl, u.text = url) ∧
    (parseVideo u.text = some v → (NamesWell u v ↔ service (lower u.host.val) = service u.hostRead ∧
        ∃ path, u.path = some path ∧
          (u.fragment = none → u.query = none → GoesOn u.hostRead ('/' :: path.val)))) := by
  refine ⟨WebUrl.parseVideo_videoEmbedUrl, ?_, WebUrl.namesWell_iff⟩
  intro url h
  obtain ⟨hservice, -, -⟩ := parseVideo_eq_some_iff.mp h
  rcases hscheme : afterScheme url with - | rest
  · unfold splitUrl at hservice
    rw [hscheme] at hservice
    cases hservice
  · exact WebUrl.exists_text hscheme

/-- A short link with a time in its fragment names nothing, and a host in the
fragment is taken for the host. -/
theorem fragment_on_path :
    parseVideo "https://youtu.be/dQw4w9WgXcQ".toList = some ⟨.youtube, "dQw4w9WgXcQ".toList⟩ ∧
      parseVideo "https://youtu.be/dQw4w9WgXcQ#t=42".toList = none ∧
      parseVideo "https://evil.example#@youtu.be/dQw4w9WgXcQ".toList =
        some ⟨.youtube, "dQw4w9WgXcQ".toList⟩ := by
  refine ⟨?_, ?_, ?_⟩ <;> decide +kernel

end WebsiteRender

end CErp
