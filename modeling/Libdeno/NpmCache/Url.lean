import Mathlib
import Libdeno.Snapshot.Table

/-!
# Libdeno.NpmCache.Url

URLs as the npm cache sees them: what a text with an authority looks like, what is known of a
parser of URLs, and a parser of which all this holds.
-/

namespace Libdeno.NpmCache

open Lines
open Snapshot (Str lit)

/-! ### URLs -/

/-- `url::Url`, as far as it is used. A setter that fails leaves the URL as it is. -/
structure UrlApi (Url : Type) where
  parse : Str → Option Url
  username : Url → Str
  password : Url → Option Str
  hostStr : Url → Option Str
  setUsername : Url → Str → Url
  setPassword : Url → Option Str → Url
  toText : Url → Str

section

variable {Url : Type} (urls : UrlApi Url)

/-- `url_has_userinfo`. -/
def urlHasUserinfo (url : Url) : Bool :=
  !(urls.username url).isEmpty || (urls.password url).isSome

/-- A URL without its user-info. -/
def cleared (url : Url) : Url := urls.setPassword (urls.setUsername url []) none

end

/-! ### Texts with an authority -/

/-- The name of a URL scheme with an authority in which user-info may stand. -/
structure SchemeName (name : Str) : Prop where
  head : name.head?.map Char.isAlpha = some true
  chars : ∀ c ∈ name, c.isAlphanum ∨ c ∈ ['+', '-', '.']
  noFile : name.map Char.toLower ≠ lit "file"

/-- The characters that end an authority, or that a parser of URLs drops. -/
def authorityEnd : Str := ['/', '?', '#', '\\', '\t', '\n', '\r']

/-- What may stand in front of the host. -/
structure UserinfoText (userinfo : Str) : Prop where
  nonempty : userinfo ≠ []
  chars : ∀ c ∈ userinfo, c ∉ authorityEnd

/-- A host, with its port if there is one. -/
structure HostText (host : Str) : Prop where
  head : ∃ c, host.head? = some c ∧ ' ' < c ∧ c ≠ ':'
  chars : ∀ c ∈ host, c ∉ authorityEnd ∧ c ≠ '@'

/-- What may follow an authority. -/
def TailText (tail : Str) : Prop := ∀ c, tail.head? = some c → c ∈ ['/', '?', '#', '\\']

/-- How a text names the registry it is about. -/
inductive Lead where
  /-- A host alone. -/
  | bare
  | slashes
  | scheme (name : Str) (h : SchemeName name)

def Lead.text : Lead → Str
  | .bare => []
  | .slashes => lit "//"
  | .scheme name _ => name ++ lit "://"

/-- A text that names a registry, apart from its user-info. -/
structure Spelling where
  lead : Lead
  host : Str
  tail : Str
  hostText : HostText host
  tailText : TailText tail
  /-- What looks like a scheme is one. -/
  noScheme : lead = .bare → ¬ (host.getLast? = some ':' ∧ lit "//" <+: tail)

namespace Spelling

/-- The text without user-info. -/
def plain (s : Spelling) : Str := s.lead.text ++ (s.host ++ s.tail)

/-- The text with user-info. -/
def withUserinfo (s : Spelling) (userinfo : Str) : Str :=
  s.lead.text ++ (userinfo ++ '@' :: (s.host ++ s.tail))

end Spelling

/-- A text with user-info in front of its host. -/
def SpelledUserinfo (text : Str) : Prop :=
  ∃ (s : Spelling) (userinfo : Str), UserinfoText userinfo ∧ text = s.withUserinfo userinfo

/-- Texts that spell the same and have other user-info, or none. -/
inductive SameSpelling : Str → Str → Prop where
  | refl (text : Str) : SameSpelling text text
  | other (s : Spelling) {userinfo userinfo' : Str} (h : UserinfoText userinfo)
      (h' : UserinfoText userinfo') :
      SameSpelling (s.withUserinfo userinfo) (s.withUserinfo userinfo')
  | removed (s : Spelling) {userinfo : Str} (h : UserinfoText userinfo) :
      SameSpelling (s.withUserinfo userinfo) s.plain
  | added (s : Spelling) {userinfo : Str} (h : UserinfoText userinfo) :
      SameSpelling s.plain (s.withUserinfo userinfo)

theorem SchemeName.notMem {name : Str} (h : SchemeName name) {c : Char}
    (hc : c.isAlphanum = false) (hmore : c ∉ ['+', '-', '.']) : c ∉ name := by
  intro mem
  rcases h.chars c mem with halnum | hother
  · rw [hc] at halnum
    cases halnum
  · exact hmore hother

/-! ### What is known of URLs -/

/-- The schemes whose URLs have an authority even where it is not spelled. -/
def specialSchemes : List Str :=
  [lit "http", lit "https", lit "ws", lit "wss", lit "ftp", lit "file"]

/-- What the documentation of `url` says, of the functions above. -/
structure UrlLaws {Url : Type} (urls : UrlApi Url) : Prop where
  setUsername_setUsername : ∀ url name name',
    urls.setUsername (urls.setUsername url name) name' = urls.setUsername url name'
  setPassword_setPassword : ∀ url password password',
    urls.setPassword (urls.setPassword url password) password' = urls.setPassword url password'
  setUsername_setPassword : ∀ url name password,
    urls.setUsername (urls.setPassword url password) name =
      urls.setPassword (urls.setUsername url name) password
  /-- Removing a user name or a password that is not there does nothing. -/
  setUsername_same : ∀ url, urls.username url = [] → urls.setUsername url [] = url
  setPassword_same : ∀ url, urls.password url = none → urls.setPassword url none = url
  /-- The user-info of a URL is part of its text. -/
  toText_cleared : ∀ url, (urls.hostStr url).isSome → urlHasUserinfo urls url = true →
    urls.toText (cleared urls url) ≠ urls.toText url
  /-- There is no user-info without a host. -/
  userinfo_host : ∀ url, urlHasUserinfo urls url = true → (urls.hostStr url).isSome
  /-- User-info in front of a host sets user name and password and nothing else. -/
  parse_userinfo : ∀ name userinfo host tail, SchemeName name → UserinfoText userinfo →
    HostText host → TailText tail →
    ∃ user password, urls.parse (name ++ (lit "://" ++ (userinfo ++ '@' :: (host ++ tail)))) =
      (urls.parse (name ++ (lit "://" ++ (host ++ tail)))).map fun url =>
        urls.setPassword (urls.setUsername url user) password
  /-- A text without a scheme is no absolute URL. -/
  parse_noScheme : ∀ word rest, (∀ c ∈ word, c.isAlpha) → word ≠ [] →
    urls.parse (word ++ '@' :: rest) = none
  /-- Any other scheme may be followed by anything. Its URL has no host, and begins with the
  scheme. -/
  parse_opaque : ∀ name c rest, (∀ c ∈ name, c.isLower) → name ≠ [] →
    name ∉ specialSchemes → c.isAlpha → ∃ url, urls.parse (name ++ ':' :: c :: rest) = some url ∧
      urls.hostStr url = none ∧ name ++ [':'] <+: urls.toText url

section

variable {Url : Type} {urls : UrlApi Url}

theorem cleared_set (laws : UrlLaws urls) (url : Url) (name : Str) (password : Option Str) :
    cleared urls (urls.setPassword (urls.setUsername url name) password) = cleared urls url := by
  rw [cleared, laws.setUsername_setPassword, laws.setUsername_setUsername,
    laws.setPassword_setPassword]
  rfl

/-- A URL without user-info is shown as it is. -/
theorem cleared_same (laws : UrlLaws urls) {url : Url} (h : urlHasUserinfo urls url = false) :
    cleared urls url = url := by
  obtain ⟨hname, hpassword⟩ := Bool.or_eq_false_iff.mp h
  have hname : urls.username url = [] := by simpa using hname
  have hpassword : urls.password url = none := by simpa using hpassword
  rw [cleared, laws.setUsername_same url hname, laws.setPassword_same url hpassword]

end

/-! ### A parser of URLs -/

/-- An authority: user-info and a host. -/
structure Authority where
  username : Str
  password : Option Str
  host : Str
  deriving DecidableEq

/-- A URL that is kept as it was written. -/
structure PlainUrl where
  scheme : Str
  authority : Option Authority
  rest : Str
  deriving DecidableEq

namespace PlainUrl

/-- User name and password; an empty password is none. -/
def credentials (userinfo : Str) : Str × Option Str :=
  match splitOnce ':' userinfo with
  | none => (userinfo, none)
  | some (username, password) => (username, if password = [] then none else some password)

def isSchemeName (name : Str) : Bool :=
  name.head?.map Char.isAlpha = some true &&
    name.all fun c => c.isAlphanum || ['+', '-', '.'].contains c

def endsAuthority (c : Char) : Bool := ['/', '?', '#', '\\'].contains c

def parseAuthority (text : Str) : Authority :=
  match rsplitOnce '@' text with
  | none => ⟨[], none, text⟩
  | some (userinfo, host) => ⟨(credentials userinfo).1, (credentials userinfo).2, host⟩

def parse (text : Str) : Option PlainUrl :=
  match splitOnce ':' text with
  | none => none
  | some (name, rest) =>
      if !isSchemeName name then none
      else if lit "//" <+: rest then
        let authority := parseAuthority ((rest.drop 2).takeWhile fun c => !endsAuthority c)
        let path := (rest.drop 2).dropWhile fun c => !endsAuthority c
        if authority.host = [] then none
        else some ⟨name, some authority, if path = [] then ['/'] else path⟩
      else some ⟨name, none, rest⟩

def userinfoText (authority : Authority) : Str :=
  if authority.username = [] ∧ authority.password = none then []
  else authority.username ++ (authority.password.elim [] fun password => ':' :: password) ++ ['@']

def toText (url : PlainUrl) : Str :=
  url.scheme ++ ':' :: match url.authority with
    | none => url.rest
    | some authority => lit "//" ++ (userinfoText authority ++ (authority.host ++ url.rest))

end PlainUrl

/-- URLs that are kept as they were written. -/
def plainUrls : UrlApi PlainUrl where
  parse := PlainUrl.parse
  username url := url.authority.elim [] Authority.username
  password url := url.authority.bind Authority.password
  hostStr url := url.authority.map Authority.host
  setUsername url username :=
    { url with authority := url.authority.map fun a => { a with username := username } }
  setPassword url password :=
    { url with authority := url.authority.map fun a => { a with password := password } }
  toText := PlainUrl.toText

namespace PlainUrl

theorem isSchemeName_of {name : Str} (h : SchemeName name) : isSchemeName name = true := by
  rw [isSchemeName, Bool.and_eq_true, decide_eq_true_eq, List.all_eq_true]
  exact ⟨h.head, fun c mem => by simpa using h.chars c mem⟩

theorem notMem_of_isSchemeName {name : Str} (h : isSchemeName name = true) {c : Char}
    (hc : (c.isAlphanum || ['+', '-', '.'].contains c) = false) : c ∉ name := by
  intro mem
  rw [isSchemeName, Bool.and_eq_true, List.all_eq_true] at h
  rw [h.2 c mem] at hc
  cases hc

theorem endsAuthority_of_notMem {c : Char} (h : c ∉ authorityEnd) : endsAuthority c = false := by
  simp only [authorityEnd, List.mem_cons, List.not_mem_nil, or_false, not_or] at h
  simp [endsAuthority, h]

/-- What a hierarchical text is parsed as. -/
theorem parse_authority {name authority tail : Str} (hname : SchemeName name)
    (hauthority : ∀ c ∈ authority, c ∉ authorityEnd) (htail : TailText tail) :
    parse (name ++ (lit "://" ++ (authority ++ tail))) =
      if (parseAuthority authority).host = [] then none
      else some ⟨name, some (parseAuthority authority), if tail = [] then ['/'] else tail⟩ := by
  have hends : ∀ c ∈ authority, (!endsAuthority c) = true := by
    intro c mem
    rw [endsAuthority_of_notMem (hauthority c mem)]
    rfl
  have hsplit : splitOnce ':' (name ++ (lit "://" ++ (authority ++ tail))) =
      some (name, lit "//" ++ (authority ++ tail)) :=
    splitOnce_append (hname.notMem (by decide) (by decide)) _
  have hstart : lit "//" <+: lit "//" ++ (authority ++ tail) := List.prefix_append _ _
  have hdrop : (lit "//" ++ (authority ++ tail)).drop 2 = authority ++ tail := rfl
  have hhead : ∀ c, tail.head? = some c → (!endsAuthority c) = false := by
    intro c hc
    have hmem := htail c hc
    simp only [List.mem_cons, List.not_mem_nil, or_false] at hmem
    rcases hmem with rfl | rfl | rfl | rfl <;> decide
  have htake : (authority ++ tail).takeWhile (fun c => !endsAuthority c) = authority := by
    rw [List.takeWhile_append_of_pos hends]
    cases tail with
    | nil => simp
    | cons c tail => rw [List.takeWhile_cons_of_neg (by simp [hhead c rfl]), List.append_nil]
  have hrest : (authority ++ tail).dropWhile (fun c => !endsAuthority c) = tail := by
    rw [List.dropWhile_append_of_pos hends]
    cases tail with
    | nil => rfl
    | cons c tail => rw [List.dropWhile_cons_of_neg (by simp [hhead c rfl])]
  rw [parse, hsplit]
  simp only [isSchemeName_of hname, Bool.not_true, Bool.false_eq_true, if_false, if_pos hstart,
    hdrop, htake, hrest]

theorem parseAuthority_plain {host : Str} (h : HostText host) :
    parseAuthority host = ⟨[], none, host⟩ := by
  rw [parseAuthority, rsplitOnce_of_notMem fun mem => (h.chars _ mem).2 rfl]

theorem parseAuthority_userinfo (userinfo : Str) {host : Str} (h : HostText host) :
    parseAuthority (userinfo ++ '@' :: host) =
      ⟨(credentials userinfo).1, (credentials userinfo).2, host⟩ := by
  rw [parseAuthority, rsplitOnce_append fun mem => (h.chars _ mem).2 rfl]

theorem host_ne_nil {host : Str} (h : HostText host) : host ≠ [] := by
  rintro rfl
  obtain ⟨c, hc, -⟩ := h.head
  cases hc

theorem parse_userinfo {name userinfo host tail : Str} (hname : SchemeName name)
    (huserinfo : UserinfoText userinfo) (hhost : HostText host) (htail : TailText tail) :
    ∃ user password, plainUrls.parse (name ++ (lit "://" ++ (userinfo ++ '@' :: (host ++ tail)))) =
      (plainUrls.parse (name ++ (lit "://" ++ (host ++ tail)))).map fun url =>
        plainUrls.setPassword (plainUrls.setUsername url user) password := by
  have hchars : ∀ c ∈ userinfo ++ '@' :: host, c ∉ authorityEnd := by
    intro c mem
    rcases List.mem_append.mp mem with mem | mem
    · exact huserinfo.chars c mem
    · rcases List.mem_cons.mp mem with rfl | mem
      · decide
      · exact (hhost.chars c mem).1
  have hwith : userinfo ++ '@' :: (host ++ tail) = (userinfo ++ '@' :: host) ++ tail := by simp
  refine ⟨(credentials userinfo).1, (credentials userinfo).2, ?_⟩
  show parse _ = (parse _).map _
  rw [hwith, parse_authority hname hchars htail, parseAuthority_userinfo userinfo hhost,
    parse_authority hname (fun c mem => (hhost.chars c mem).1) htail, parseAuthority_plain hhost,
    if_neg (host_ne_nil hhost), if_neg (host_ne_nil hhost)]
  rfl

theorem parse_noScheme {word : Str} (h : ∀ c ∈ word, c.isAlpha) (rest : Str) :
    parse (word ++ '@' :: rest) = none := by
  have hcolon : ':' ∉ word ++ ['@'] := by
    intro mem
    rcases List.mem_append.mp mem with mem | mem
    · exact absurd (h _ mem) (by decide)
    · exact absurd mem (by decide)
  have hsplit : splitOnce ':' (word ++ '@' :: rest) =
      (splitOnce ':' rest).map fun p => (word ++ ['@'] ++ p.1, p.2) := by
    rw [← splitOnce_append_left hcolon]
    simp
  rw [parse, hsplit]
  cases splitOnce ':' rest with
  | none => rfl
  | some p =>
      have hno : isSchemeName (word ++ ['@'] ++ p.1) = false := by
        rw [Bool.eq_false_iff]
        intro hname
        exact notMem_of_isSchemeName hname (c := '@') (by decide) (by simp)
      simp only [Option.map_some, hno, Bool.not_false, if_true]

theorem parse_opaque {name : Str} {c : Char} (hname : ∀ c ∈ name, c.isLower)
    (hne : name ≠ []) (hc : c.isAlpha = true) (rest : Str) :
    parse (name ++ ':' :: c :: rest) = some ⟨name, none, c :: rest⟩ := by
  have halpha : ∀ c ∈ name, c.isAlpha = true := fun c mem => by simp [Char.isAlpha, hname c mem]
  have hcolon : ':' ∉ name := fun mem => absurd (hname _ mem) (by decide)
  have hscheme : isSchemeName name = true := by
    rw [isSchemeName, Bool.and_eq_true, decide_eq_true_eq, List.all_eq_true]
    refine ⟨?_, fun c mem => by simp [Char.isAlphanum, halpha c mem]⟩
    cases name with
    | nil => exact absurd rfl hne
    | cons c name => exact congrArg some (halpha c List.mem_cons_self)
  have hno : ¬ lit "//" <+: c :: rest := by
    intro hstart
    have hslash : '/' = c := (List.cons_prefix_cons.mp hstart).1
    rw [← hslash] at hc
    exact absurd hc (by decide)
  rw [parse, splitOnce_append hcolon]
  simp only [hscheme, Bool.not_true, Bool.false_eq_true, if_false, if_neg hno]

end PlainUrl

theorem plainUrls_laws : UrlLaws plainUrls where
  setUsername_setUsername url _ _ := by cases url with | mk _ authority _ => cases authority <;> rfl
  setPassword_setPassword url _ _ := by cases url with | mk _ authority _ => cases authority <;> rfl
  setUsername_setPassword url _ _ := by cases url with | mk _ authority _ => cases authority <;> rfl
  setUsername_same url h := by
    cases url with
    | mk scheme authority rest =>
        cases authority with
        | none => rfl
        | some authority =>
            cases authority with
            | mk username password host =>
                have h : username = [] := h
                rw [h]
                rfl
  setPassword_same url h := by
    cases url with
    | mk scheme authority rest =>
        cases authority with
        | none => rfl
        | some authority =>
            cases authority with
            | mk username password host =>
                have h : password = none := h
                rw [h]
                rfl
  toText_cleared url hhost h := by
    cases url with
    | mk scheme authority rest =>
        cases authority with
        | none => cases hhost
        | some authority =>
            cases authority with
            | mk username password host =>
                intro heq
                have hlength := congrArg List.length heq
                have hsome : ¬ (username = [] ∧ password = none) := by
                  rintro ⟨rfl, rfl⟩
                  cases h
                simp [plainUrls, cleared, PlainUrl.toText, PlainUrl.userinfoText, hsome]
                  at hlength
                omega
  userinfo_host url h := by
    cases url with
    | mk scheme authority rest =>
        cases authority with
        | none => cases h
        | some authority => rfl
  parse_userinfo _ _ _ _ hname huserinfo hhost htail :=
    PlainUrl.parse_userinfo hname huserinfo hhost htail
  parse_noScheme _ rest h _ := PlainUrl.parse_noScheme h rest
  parse_opaque name c rest hname hne _ hc := by
    refine ⟨_, PlainUrl.parse_opaque hname hne hc rest, rfl, ?_⟩
    show name ++ [':'] <+: name ++ ':' :: (c :: rest)
    exact ⟨c :: rest, by simp⟩

end Libdeno.NpmCache
