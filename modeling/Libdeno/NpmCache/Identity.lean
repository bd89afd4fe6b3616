import Mathlib
import Libdeno.NpmCache.Url

/-!
# Libdeno.NpmCache.Identity

The credential-free identity of an npm configuration, and the flags that say whether there
are credentials. Every place a registry can be written in has two functions, one that shows
it without its user-info and one that looks for user-info. Two runs that differ only in
credentials have one identity where every registry key names its authority and is a URL
without its user-info, and every erased user-info is flagged but for what the two functions
of the environment read differently.
-/

namespace Libdeno.NpmCache

open Lines
open Snapshot (Str lit)

/-! ### What is read -/

/-- `deno_npmrc::RegistryConfig`, as far as it is used. -/
structure ConfigApi (Config : Type) where
  hasAuth : Config → Bool
  certfile : Config → Option Str
  keyfile : Config → Option Str

/-- A map with texts as keys, in the order it is iterated in. -/
structure HashMap (α : Type) where
  entries : List (Str × α)
  nodup : (entries.map Prod.fst).Nodup

/-- `deno_npmrc::ReplaceRegistryHost`. -/
inductive ReplaceRegistryHost (Url : Type) where
  | npmJs
  | never
  | always
  | hostname (hostname : Str)
  | url (url : Url)
  deriving DecidableEq

/-- `deno_npmrc::TrustPolicyConfig`. -/
inductive TrustPolicyConfig where
  | noDowngrade
  | off
  deriving DecidableEq

/-- `deno_npmrc::RegistryConfigWithUrl`. -/
structure RegistryConfigWithUrl (Url Config : Type) where
  registryUrl : Url
  config : Config
  deriving DecidableEq

/-- `deno_npmrc::ResolvedNpmRc`. -/
structure ResolvedNpmRc (Url Config : Type) where
  defaultConfig : RegistryConfigWithUrl Url Config
  scopes : HashMap (RegistryConfigWithUrl Url Config)
  registryConfigs : HashMap Config
  replaceRegistryHost : ReplaceRegistryHost Url
  minReleaseAgeDays : Option UInt64
  trustPolicy : TrustPolicyConfig
  trustPolicyIgnoreAfterMinutes : Option UInt64
  trustPolicyExclude : List Str

/-- `NpmConfigFingerprint`. -/
structure NpmConfigFingerprint where
  defaultRegistry : Str
  scopedRegistries : List (Str ×ₗ Str)
  registryConfigs : List Str
  replaceRegistryHost : Str
  minReleaseAgeDays : Option UInt64
  trustPolicyNoDowngrade : Bool
  trustPolicyIgnoreAfterMinutes : Option UInt64
  trustPolicyExclude : List Str
  deriving DecidableEq

/-- The environment of the process. -/
abbrev Environment := Str → Option (List UInt8)

/-- `std::env::var(name).ok()`. -/
def Environment.var (env : Environment) (name : Str) : Option Str :=
  (env name).bind decodeUtf8

section Functions

variable {Url Config : Type} (urls : UrlApi Url) (configs : ConfigApi Config)

/-! ### Registries -/

/-- `registry_config_has_sensitive`. -/
def registryConfigHasSensitive (config : Config) : Bool :=
  configs.hasAuth config || (configs.certfile config).isSome || (configs.keyfile config).isSome

/-- The text under which a registry key is parsed. -/
def candidate (key : Str) : Str :=
  if lit "//" <+: key then lit "https:" ++ key else key

/-- `registry_config_key_has_userinfo`. -/
def registryConfigKeyHasUserinfo (key : Str) : Bool :=
  match urls.parse (candidate key) with
  | some url => urlHasUserinfo urls url
  | none =>
      match splitOnceText (lit "://") (candidate key) with
      | some (_, rest) => (rest.takeWhile (· ≠ '/')).contains '@'
      | none => false

/-- `public_registry_url`. -/
def publicRegistryUrl (url : Url) : Str := urls.toText (cleared urls url)

/-- `public_registry_config_key`. -/
def publicRegistryConfigKey (key : Str) : Str :=
  match urls.parse (candidate key) with
  | some url => publicRegistryUrl urls url
  | none => if '@' ∈ candidate key then lit "<redacted-registry>" else candidate key

/-- `replace_registry_host_identity`. -/
def replaceRegistryHostIdentity : ReplaceRegistryHost Url → Str
  | .npmJs => lit "npmjs"
  | .never => lit "never"
  | .always => lit "always"
  | .hostname hostname => lit "hostname:" ++ hostname
  | .url url => lit "url:" ++ publicRegistryUrl urls url

/-- The user-info of a replaced host. -/
def replaceRegistryHostHasUserinfo : ReplaceRegistryHost Url → Bool
  | .url url => urlHasUserinfo urls url
  | _ => false

/-- `npm_auth_presence`. -/
def npmAuthPresence (npmrc : ResolvedNpmRc Url Config) : Bool :=
  registryConfigHasSensitive configs npmrc.defaultConfig.config ||
    urlHasUserinfo urls npmrc.defaultConfig.registryUrl ||
    (npmrc.scopes.entries.any fun entry =>
      registryConfigHasSensitive configs entry.2.config ||
        urlHasUserinfo urls entry.2.registryUrl) ||
    (npmrc.registryConfigs.entries.any fun entry =>
      registryConfigHasSensitive configs entry.2 ||
        registryConfigKeyHasUserinfo urls entry.1) ||
    replaceRegistryHostHasUserinfo urls npmrc.replaceRegistryHost

/-- Map the entries of a table to what is shown of them, and gather a flag on the way. -/
def collect {α β : Type} (shown : α → β) (flag : α → Bool) (hasAuth : Bool) (entries : List α) :
    List β × Bool :=
  entries.foldl (fun acc entry => (acc.1 ++ [shown entry], acc.2 || flag entry)) ([], hasAuth)

/-- `npm_config_fingerprint`. -/
def npmConfigFingerprint (npmrc : ResolvedNpmRc Url Config) : NpmConfigFingerprint × Bool :=
  let hasAuth := registryConfigHasSensitive configs npmrc.defaultConfig.config ||
    urlHasUserinfo urls npmrc.defaultConfig.registryUrl
  let scopes := collect
    (fun entry => toLex (entry.1, publicRegistryUrl urls entry.2.registryUrl))
    (fun entry => registryConfigHasSensitive configs entry.2.config ||
      urlHasUserinfo urls entry.2.registryUrl)
    hasAuth npmrc.scopes.entries
  let registry := collect
    (fun entry => publicRegistryConfigKey urls entry.1)
    (fun entry => registryConfigHasSensitive configs entry.2 ||
      registryConfigKeyHasUserinfo urls entry.1)
    scopes.2 npmrc.registryConfigs.entries
  ({ defaultRegistry := publicRegistryUrl urls npmrc.defaultConfig.registryUrl
     scopedRegistries := scopes.1.insertionSort (· ≤ ·)
     registryConfigs := registry.1.insertionSort (· ≤ ·)
     replaceRegistryHost := replaceRegistryHostIdentity urls npmrc.replaceRegistryHost
     minReleaseAgeDays := npmrc.minReleaseAgeDays
     trustPolicyNoDowngrade := npmrc.trustPolicy = .noDowngrade
     trustPolicyIgnoreAfterMinutes := npmrc.trustPolicyIgnoreAfterMinutes
     trustPolicyExclude := sortDedup npmrc.trustPolicyExclude },
    registry.2 || replaceRegistryHostHasUserinfo urls npmrc.replaceRegistryHost)

/-! ### The environment -/

/-- The first of the variables that is set. -/
def firstVar (env : Environment) (names : List Str) : Option Str :=
  names.findSome? env.var

/-- `env_url_identity`. -/
def envUrlIdentity (env : Environment) (names : List Str) : Option Str :=
  (firstVar env names).map fun value =>
    match urls.parse value with
    | some url => publicRegistryUrl urls url
    | none => lit "<invalid>"

/-- `env_url_has_userinfo`. -/
def envUrlHasUserinfo (env : Environment) (names : List Str) : Bool :=
  match firstVar env names with
  | none => false
  | some value =>
      match urls.parse value with
      | some url => urlHasUserinfo urls url
      | none => false

/-- A text as a URL, if it is one with a host. -/
def parseHosted (text : Str) : Option Url :=
  (urls.parse text).filter fun url => (urls.hostStr url).isSome

/-- `env_replace_registry_hostname_identity`. -/
def envReplaceRegistryHostnameIdentity (value : Str) : Str :=
  match parseHosted urls (lit "https://" ++ value) with
  | some url => publicRegistryUrl urls url
  | none =>
      match rsplitOnce '@' value with
      | some (_, hostname) => hostname
      | none => value

/-- The values that name no host. -/
def hostKeywords : List Str := [[], lit "npmjs", lit "never", lit "always"]

def registryNames : List Str := [lit "NPM_CONFIG_REGISTRY", lit "npm_config_registry"]

def replaceRegistryHostNames : List Str :=
  [lit "NPM_CONFIG_REPLACE_REGISTRY_HOST", lit "npm_config_replace_registry_host"]

/-- `env_replace_registry_host_identity`. -/
def envReplaceRegistryHostIdentity (env : Environment) : Option Str :=
  (firstVar env replaceRegistryHostNames).map fun value =>
    let value := trim isWhitespace value
    if value ∈ hostKeywords then value
    else
      match parseHosted urls value with
      | some url => lit "url:" ++ publicRegistryUrl urls url
      | none => lit "hostname:" ++ envReplaceRegistryHostnameIdentity urls value

/-- `env_replace_registry_host_has_auth`. -/
def envReplaceRegistryHostHasAuth (env : Environment) : Bool :=
  match firstVar env replaceRegistryHostNames with
  | none => false
  | some value =>
      match parseHosted urls (trim isWhitespace value) with
      | some url => urlHasUserinfo urls url
      | none => false

/-- `env_scalar_identity`. -/
def envScalarIdentity (env : Environment) (names : List Str) : Option Str := firstVar env names

end Functions

section Results

variable {Url Config : Type} {urls : UrlApi Url} {configs : ConfigApi Config}

/-! ### User-info of a URL -/

/-- What is shown of a URL lacks something exactly where there is user-info. -/
theorem publicRegistryUrl_ne_iff (laws : UrlLaws urls) (url : Url) :
    publicRegistryUrl urls url ≠ urls.toText url ↔ urlHasUserinfo urls url = true := by
  constructor
  · intro hne
    by_contra hno
    rw [publicRegistryUrl, cleared_same laws (Bool.eq_false_iff.mpr hno)] at hne
    exact hne rfl
  · intro h
    exact laws.toText_cleared url (laws.userinfo_host url h) h

theorem publicRegistryUrl_of_noHost (laws : UrlLaws urls) {url : Url}
    (h : urls.hostStr url = none) : publicRegistryUrl urls url = urls.toText url := by
  by_contra hne
  have hhost := laws.userinfo_host url ((publicRegistryUrl_ne_iff laws url).mp hne)
  rw [h] at hhost
  cases hhost

/-! ### Keys -/

/-- The scheme under which a text with an authority is parsed. -/
theorem exists_scheme {lead : Lead} (h : lead ≠ .bare) : ∃ name, SchemeName name ∧
    ∀ rest, candidate (lead.text ++ rest) = name ++ (lit "://" ++ rest) := by
  cases lead with
  | bare => exact absurd rfl h
  | slashes =>
      refine ⟨lit "https", ⟨by decide, ?_, by decide⟩, fun rest => ?_⟩
      · exact forall_mem_of_all (by decide)
      · have hstart : lit "//" <+: Lead.slashes.text ++ rest := List.prefix_append _ _
        rw [candidate, if_pos hstart, Lead.text, ← List.append_assoc, ← List.append_assoc]
        rfl
  | scheme name hname =>
      refine ⟨name, hname, fun rest => ?_⟩
      have hno : ¬ lit "//" <+: (Lead.scheme name hname).text ++ rest := by
        intro hstart
        cases name with
        | nil => cases hname.head
        | cons c name =>
            have hc : '/' = c := (List.cons_prefix_cons.mp hstart).1
            exact hname.notMem (c := '/') (by decide) (by decide) (hc ▸ List.mem_cons_self)
      rw [candidate, if_neg hno, Lead.text, List.append_assoc]

theorem mem_candidate {c : Char} {key : Str} (h : c ∈ key) : c ∈ candidate key := by
  rw [candidate]
  split
  · exact List.mem_append_right _ h
  · exact h

theorem candidate_cons {c : Char} (h : c ≠ '/') (key : Str) : candidate (c :: key) = c :: key := by
  refine if_neg fun hstart => ?_
  exact h (List.cons_prefix_cons.mp hstart).1.symm

theorem parse_withUserinfo (laws : UrlLaws urls) {s : Spelling} (hlead : s.lead ≠ .bare)
    {userinfo : Str} (h : UserinfoText userinfo) :
    ∃ user password, urls.parse (candidate (s.withUserinfo userinfo)) =
      (urls.parse (candidate s.plain)).map fun url =>
        urls.setPassword (urls.setUsername url user) password := by
  obtain ⟨name, hname, hcandidate⟩ := exists_scheme hlead
  rw [Spelling.withUserinfo, Spelling.plain, hcandidate, hcandidate]
  exact laws.parse_userinfo name userinfo s.host s.tail hname h s.hostText s.tailText

/-- A key that is no URL is redacted if there is an `@` in it. -/
theorem publicRegistryConfigKey_redacted {key : Str} (hparse : urls.parse (candidate key) = none)
    (hat : '@' ∈ key) : publicRegistryConfigKey urls key = lit "<redacted-registry>" := by
  rw [publicRegistryConfigKey, hparse]
  exact if_pos (mem_candidate hat)

theorem at_mem_withUserinfo (s : Spelling) (userinfo : Str) : '@' ∈ s.withUserinfo userinfo :=
  List.mem_append_right _ (List.mem_append_right _ List.mem_cons_self)

/-- The spelling of a key does not matter for how its user-info is treated. -/
def Robust (urls : UrlApi Url) (s : Spelling) : Prop :=
  s.lead ≠ .bare ∧ ((urls.parse (candidate s.plain)).isSome ∨ '@' ∈ s.tail)

/-- The user-info of a key does not show. -/
theorem publicRegistryConfigKey_withUserinfo (laws : UrlLaws urls) {s : Spelling}
    (robust : Robust urls s) {userinfo : Str} (h : UserinfoText userinfo) :
    publicRegistryConfigKey urls (s.withUserinfo userinfo) =
      publicRegistryConfigKey urls s.plain := by
  obtain ⟨hlead, hshown⟩ := robust
  obtain ⟨user, password, hparse⟩ := parse_withUserinfo laws hlead h
  cases hplain : urls.parse (candidate s.plain) with
  | some url =>
      rw [hplain, Option.map_some] at hparse
      simp only [publicRegistryConfigKey, hparse, hplain, publicRegistryUrl, cleared_set laws]
  | none =>
      rw [hplain, Option.map_none] at hparse
      have hat : '@' ∈ s.tail := by
        rcases hshown with hsome | hat
        · rw [hplain] at hsome
          cases hsome
        · exact hat
      rw [publicRegistryConfigKey_redacted hparse (at_mem_withUserinfo s userinfo),
        publicRegistryConfigKey_redacted hplain
          (List.mem_append_right _ (List.mem_append_right _ hat))]

/-- User-info of a key that is no URL is found all the same. -/
theorem registryConfigKeyHasUserinfo_of_none {s : Spelling} (hlead : s.lead ≠ .bare)
    {userinfo : Str} (h : UserinfoText userinfo)
    (hparse : urls.parse (candidate (s.withUserinfo userinfo)) = none) :
    registryConfigKeyHasUserinfo urls (s.withUserinfo userinfo) = true := by
  obtain ⟨name, hname, hcandidate⟩ := exists_scheme hlead
  have hcolon : ':' ∉ name := hname.notMem (by decide) (by decide)
  have hsplit : splitOnceText (lit "://") (candidate (s.withUserinfo userinfo)) =
      some (name, userinfo ++ '@' :: (s.host ++ s.tail)) := by
    rw [Spelling.withUserinfo, hcandidate]
    exact splitOnceText_append hcolon _ _
  rw [registryConfigKeyHasUserinfo, hparse, hsplit]
  have hall : ∀ c ∈ userinfo, decide (c ≠ '/') = true := by
    intro c mem
    refine decide_eq_true ?_
    rintro rfl
    exact h.chars _ mem List.mem_cons_self
  show List.contains (List.takeWhile _ _) '@' = true
  rw [List.takeWhile_append_of_pos hall]
  simp

/-- A host that stands alone: user-info of one word is redacted, and user-info with a
password is left as it is. -/
theorem publicRegistryConfigKey_bare (laws : UrlLaws urls) {s : Spelling}
    (hlead : s.lead = .bare) (n : Nat) :
    publicRegistryConfigKey urls (s.withUserinfo (List.replicate (n + 1) 'a')) ≠
      publicRegistryConfigKey urls
        (s.withUserinfo (List.replicate (n + 1) 'a' ++ [':', 'p'])) := by
  have hletters : ∀ c ∈ List.replicate (n + 1) 'a', c = 'a' := fun c mem =>
    (List.mem_replicate.mp mem).2
  have hword : candidate (s.withUserinfo (List.replicate (n + 1) 'a')) =
      List.replicate (n + 1) 'a' ++ '@' :: (s.host ++ s.tail) := by
    rw [Spelling.withUserinfo, hlead]
    exact candidate_cons (by decide) _
  have hpassword : candidate (s.withUserinfo (List.replicate (n + 1) 'a' ++ [':', 'p'])) =
      List.replicate (n + 1) 'a' ++ ':' :: 'p' :: '@' :: (s.host ++ s.tail) := by
    rw [Spelling.withUserinfo, hlead, List.append_assoc]
    exact candidate_cons (by decide) _
  have hnone := laws.parse_noScheme (List.replicate (n + 1) 'a') (s.host ++ s.tail)
    (fun c mem => hletters c mem ▸ by decide) (by simp)
  obtain ⟨url, hsome, hhost, hstart⟩ := laws.parse_opaque (List.replicate (n + 1) 'a') 'p'
    ('@' :: (s.host ++ s.tail)) (fun c mem => hletters c mem ▸ by decide) (by simp)
    (by
      intro mem
      have hhead : ∀ name ∈ specialSchemes, name.head? ≠ some 'a' :=
        forall_mem_of_all (by decide)
      exact hhead _ mem rfl)
    (by decide)
  rw [publicRegistryConfigKey_redacted (hword ▸ hnone) (at_mem_withUserinfo s _)]
  intro heq
  rw [publicRegistryConfigKey, hpassword, hsome] at heq
  have hshown : publicRegistryUrl urls url = lit "<redacted-registry>" := heq.symm
  rw [publicRegistryUrl_of_noHost laws hhost] at hshown
  rw [hshown] at hstart
  exact absurd (List.cons_prefix_cons.mp hstart).1 (by decide)

/-! ### Configurations that differ in credentials -/

/-- Two URLs that differ at most in user-info. -/
def SameUrl (urls : UrlApi Url) : Url → Url → Prop :=
  Relation.EqvGen fun url url' =>
    ∃ name password, url' = urls.setPassword (urls.setUsername url name) password

/-- Two maps whose entries are related, in any order. -/
def HashMap.Related {α : Type} (R : Str × α → Str × α → Prop) (map map' : HashMap α) : Prop :=
  ∃ entries, entries.Perm map'.entries ∧ List.Forall₂ R map.entries entries

inductive SameHost (urls : UrlApi Url) :
    ReplaceRegistryHost Url → ReplaceRegistryHost Url → Prop where
  | refl (host : ReplaceRegistryHost Url) : SameHost urls host host
  | url {url url' : Url} (h : SameUrl urls url url') : SameHost urls (.url url) (.url url')

/-- Two configurations that differ at most in user-info and in auth material. -/
structure SameButCredentials (urls : UrlApi Url) (npmrc npmrc' : ResolvedNpmRc Url Config) :
    Prop where
  default : SameUrl urls npmrc.defaultConfig.registryUrl npmrc'.defaultConfig.registryUrl
  scopes : npmrc.scopes.Related
    (fun e e' => e.1 = e'.1 ∧ SameUrl urls e.2.registryUrl e'.2.registryUrl) npmrc'.scopes
  registryConfigs : npmrc.registryConfigs.Related (fun e e' => SameSpelling e.1 e'.1)
    npmrc'.registryConfigs
  replaceHost : SameHost urls npmrc.replaceRegistryHost npmrc'.replaceRegistryHost
  minReleaseAge : npmrc'.minReleaseAgeDays = npmrc.minReleaseAgeDays
  trustPolicy : npmrc'.trustPolicy = npmrc.trustPolicy
  trustPolicyIgnore :
    npmrc'.trustPolicyIgnoreAfterMinutes = npmrc.trustPolicyIgnoreAfterMinutes
  trustPolicyExclude : npmrc'.trustPolicyExclude = npmrc.trustPolicyExclude

/-- One configuration, with its maps iterated in another order. -/
structure Reordered (npmrc npmrc' : ResolvedNpmRc Url Config) : Prop where
  scopes : npmrc.scopes.entries.Perm npmrc'.scopes.entries
  registryConfigs : npmrc.registryConfigs.entries.Perm npmrc'.registryConfigs.entries
  same : npmrc' =
    { npmrc with scopes := npmrc'.scopes, registryConfigs := npmrc'.registryConfigs }

/-! ### The fingerprint -/

theorem collect_eq {α β : Type} (shown : α → β) (flag : α → Bool) (hasAuth : Bool)
    (entries : List α) :
    collect shown flag hasAuth entries = (entries.map shown, hasAuth || entries.any flag) := by
  have hfold : ∀ (acc : List β × Bool), entries.foldl
      (fun acc entry => (acc.1 ++ [shown entry], acc.2 || flag entry)) acc =
        (acc.1 ++ entries.map shown, acc.2 || entries.any flag) := by
    induction entries with
    | nil => simp
    | cons entry entries ih =>
        intro acc
        rw [List.foldl_cons, ih]
        simp [Bool.or_assoc]
  exact hfold ([], hasAuth)

/-- What is shown of the scopes. -/
def shownScope (urls : UrlApi Url) (entry : Str × RegistryConfigWithUrl Url Config) :
    Str ×ₗ Str :=
  toLex (entry.1, publicRegistryUrl urls entry.2.registryUrl)

/-- The credential-free part of a fingerprint. -/
theorem npmConfigFingerprint_fst (npmrc : ResolvedNpmRc Url Config) :
    (npmConfigFingerprint urls configs npmrc).1 =
      { defaultRegistry := publicRegistryUrl urls npmrc.defaultConfig.registryUrl
        scopedRegistries :=
          (npmrc.scopes.entries.map (shownScope urls)).insertionSort (· ≤ ·)
        registryConfigs := (npmrc.registryConfigs.entries.map fun entry =>
          publicRegistryConfigKey urls entry.1).insertionSort (· ≤ ·)
        replaceRegistryHost := replaceRegistryHostIdentity urls npmrc.replaceRegistryHost
        minReleaseAgeDays := npmrc.minReleaseAgeDays
        trustPolicyNoDowngrade := npmrc.trustPolicy = .noDowngrade
        trustPolicyIgnoreAfterMinutes := npmrc.trustPolicyIgnoreAfterMinutes
        trustPolicyExclude := sortDedup npmrc.trustPolicyExclude } := by
  simp only [npmConfigFingerprint, collect_eq]
  rfl

/-- The flag is what looking for credentials alone says. -/
theorem npmConfigFingerprint_snd (npmrc : ResolvedNpmRc Url Config) :
    (npmConfigFingerprint urls configs npmrc).2 = npmAuthPresence urls configs npmrc := by
  simp only [npmConfigFingerprint, collect_eq, npmAuthPresence]

theorem cleared_of_sameUrl (laws : UrlLaws urls) {url url' : Url} (h : SameUrl urls url url') :
    cleared urls url = cleared urls url' := by
  induction h with
  | rel url url' hset =>
      obtain ⟨name, password, rfl⟩ := hset
      exact (cleared_set laws url name password).symm
  | refl url => rfl
  | symm url url' _ ih => exact ih.symm
  | trans url url' url'' _ _ ih ih' => exact ih.trans ih'

theorem publicRegistryUrl_of_sameUrl (laws : UrlLaws urls) {url url' : Url}
    (h : SameUrl urls url url') : publicRegistryUrl urls url = publicRegistryUrl urls url' :=
  congrArg urls.toText (cleared_of_sameUrl laws h)

theorem replaceRegistryHostIdentity_same (laws : UrlLaws urls) {host host' : ReplaceRegistryHost Url}
    (h : SameHost urls host host') :
    replaceRegistryHostIdentity urls host = replaceRegistryHostIdentity urls host' := by
  cases h with
  | refl => rfl
  | url hurl => simp only [replaceRegistryHostIdentity, publicRegistryUrl_of_sameUrl laws hurl]

/-- What is shown of related maps is the same once it is sorted. -/
theorem HashMap.Related.insertionSort_eq {α β : Type} [LinearOrder β]
    {R : Str × α → Str × α → Prop} {map map' : HashMap α} (h : map.Related R map')
    {f : Str × α → β}
    (same : ∀ entry ∈ map.entries, ∀ entry', R entry entry' → f entry = f entry') :
    (map'.entries.map f).insertionSort (· ≤ ·) = (map.entries.map f).insertionSort (· ≤ ·) := by
  obtain ⟨entries, hperm, hrelated⟩ := h
  have hshown : map.entries.map f = entries.map f := by
    have hsame : ∀ (xs ys : List (Str × α)), List.Forall₂ R xs ys →
        (∀ x ∈ xs, x ∈ map.entries) → xs.map f = ys.map f := by
      intro xs ys hforall
      induction hforall with
      | nil => exact fun _ => rfl
      | @cons x y xs ys hxy _ ih =>
          intro hmem
          rw [List.map_cons, List.map_cons, same x (hmem x List.mem_cons_self) y hxy,
            ih fun x' mem => hmem x' (List.mem_cons_of_mem _ mem)]
    exact hsame _ _ hrelated fun _ mem => mem
  rw [hshown]
  exact insertionSort_eq_of_perm (hperm.symm.map f)

/-! ### Which keys and values are treated well -/

/-- However a key spells an authority, its user-info does not matter. -/
def Addressed (urls : UrlApi Url) (key : Str) : Prop :=
  ∀ s : Spelling, (key = s.plain ∨ ∃ userinfo, UserinfoText userinfo ∧
    key = s.withUserinfo userinfo) → Robust urls s

/-- Keys that differ in user-info show the same. -/
theorem publicRegistryConfigKey_same (laws : UrlLaws urls) {key key' : Str}
    (addressed : Addressed urls key) (h : SameSpelling key key') :
    publicRegistryConfigKey urls key = publicRegistryConfigKey urls key' := by
  cases h with
  | refl => rfl
  | other s h h' =>
      have robust := addressed s (.inr ⟨_, h, rfl⟩)
      rw [publicRegistryConfigKey_withUserinfo laws robust h,
        publicRegistryConfigKey_withUserinfo laws robust h']
  | removed s h =>
      exact publicRegistryConfigKey_withUserinfo laws (addressed s (.inr ⟨_, h, rfl⟩)) h
  | added s h =>
      exact (publicRegistryConfigKey_withUserinfo laws (addressed s (.inl rfl)) h).symm

/-- Credentials do not show in the fingerprint. -/
theorem npmConfigFingerprint_same (laws : UrlLaws urls) {npmrc npmrc' : ResolvedNpmRc Url Config}
    (addressed : ∀ entry ∈ npmrc.registryConfigs.entries, Addressed urls entry.1)
    (h : SameButCredentials urls npmrc npmrc') :
    (npmConfigFingerprint urls configs npmrc').1 = (npmConfigFingerprint urls configs npmrc).1 := by
  have hscopes := h.scopes.insertionSort_eq (f := shownScope urls) (by
    rintro entry - entry' ⟨hname, hurl⟩
    simp only [shownScope, hname, publicRegistryUrl_of_sameUrl laws hurl])
  have hkeys := h.registryConfigs.insertionSort_eq
    (f := fun entry => publicRegistryConfigKey urls entry.1) (by
      intro entry mem entry' hsame
      exact publicRegistryConfigKey_same laws (addressed entry mem) hsame)
  rw [npmConfigFingerprint_fst, npmConfigFingerprint_fst, hscopes, hkeys,
    replaceRegistryHostIdentity_same laws h.replaceHost,
    publicRegistryUrl_of_sameUrl laws h.default, h.minReleaseAge, h.trustPolicy,
    h.trustPolicyIgnore, h.trustPolicyExclude]

/-- The order in which the maps are iterated does not matter. -/
theorem npmConfigFingerprint_reordered {npmrc npmrc' : ResolvedNpmRc Url Config}
    (h : Reordered npmrc npmrc') :
    npmConfigFingerprint urls configs npmrc' = npmConfigFingerprint urls configs npmrc := by
  refine Prod.ext ?_ ?_
  · rw [npmConfigFingerprint_fst, npmConfigFingerprint_fst, h.same]
    simp only [NpmConfigFingerprint.mk.injEq, true_and, and_true]
    exact ⟨insertionSort_eq_of_perm (h.scopes.symm.map _),
      insertionSort_eq_of_perm (h.registryConfigs.symm.map _)⟩
  · rw [npmConfigFingerprint_snd, npmConfigFingerprint_snd, h.same]
    simp only [npmAuthPresence, h.scopes.symm.any_eq, h.registryConfigs.symm.any_eq]

/-! ### Erased user-info -/

/-- There is user-info in a text: it is spelled there, or a URL the text is read as has it. -/
def Carries (urls : UrlApi Url) (readings : List Str) (text : Str) : Prop :=
  SpelledUserinfo text ∨
    ∃ reading ∈ readings, ∃ url, urls.parse reading = some url ∧ urlHasUserinfo urls url = true

/-- What would be shown of a text that is parsed, if nothing was erased. -/
def whole (urls : UrlApi Url) (text : Str) : Str :=
  match urls.parse text with
  | some url => urls.toText url
  | none => text

/-- What would be shown of a replaced host, if nothing was erased. -/
def wholeHost (urls : UrlApi Url) (value : Str) : Str :=
  if value ∈ hostKeywords then value
  else
    match parseHosted urls value with
    | some url => lit "url:" ++ urls.toText url
    | none =>
        lit "hostname:" ++
          match parseHosted urls (lit "https://" ++ value) with
          | some url => urls.toText url
          | none => value

/-- The URLs of a configuration. -/
def registryUrls (npmrc : ResolvedNpmRc Url Config) : List Url :=
  npmrc.defaultConfig.registryUrl ::
    (npmrc.scopes.entries.map fun entry => entry.2.registryUrl) ++
    match npmrc.replaceRegistryHost with
    | .url url => [url]
    | _ => []

/-- A host alone, with user-info: it is read as a URL of its own scheme, or as no URL, by the
function that looks for user-info. -/
def HostOnlyUserinfo (urls : UrlApi Url) (value : Str) : Prop :=
  value ∉ hostKeywords ∧ parseHosted urls value = none ∧
    match parseHosted urls (lit "https://" ++ value) with
    | some url => urlHasUserinfo urls url = true
    | none => SpelledUserinfo value

theorem at_mem_of_spelled {text : Str} (h : SpelledUserinfo text) : '@' ∈ text := by
  obtain ⟨s, userinfo, -, rfl⟩ := h
  exact at_mem_withUserinfo s userinfo

theorem npmAuthPresence_of_url {npmrc : ResolvedNpmRc Url Config} {url : Url}
    (mem : url ∈ registryUrls npmrc) (h : urlHasUserinfo urls url = true) :
    npmAuthPresence urls configs npmrc = true := by
  rcases List.mem_append.mp mem with mem | mem
  · rcases List.mem_cons.mp mem with rfl | mem
    · simp [npmAuthPresence, h]
    · obtain ⟨entry, hentry, rfl⟩ := List.mem_map.mp mem
      have hany : (npmrc.scopes.entries.any fun entry =>
          registryConfigHasSensitive configs entry.2.config ||
            urlHasUserinfo urls entry.2.registryUrl) = true :=
        List.any_eq_true.mpr ⟨entry, hentry, by simp [h]⟩
      simp [npmAuthPresence, hany]
  · cases hhost : npmrc.replaceRegistryHost with
    | url url' =>
        rw [hhost] at mem
        have hurl : url = url' := List.mem_singleton.mp mem
        simp [npmAuthPresence, hhost, replaceRegistryHostHasUserinfo, ← hurl, h]
    | npmJs => simp [hhost] at mem
    | never => simp [hhost] at mem
    | always => simp [hhost] at mem
    | hostname hostname => simp [hhost] at mem

theorem npmAuthPresence_of_key {npmrc : ResolvedNpmRc Url Config} {entry : Str × Config}
    (mem : entry ∈ npmrc.registryConfigs.entries)
    (h : registryConfigKeyHasUserinfo urls entry.1 = true) :
    npmAuthPresence urls configs npmrc = true := by
  have hany : (npmrc.registryConfigs.entries.any fun entry =>
      registryConfigHasSensitive configs entry.2 ||
        registryConfigKeyHasUserinfo urls entry.1) = true :=
    List.any_eq_true.mpr ⟨entry, mem, by simp [h]⟩
  simp [npmAuthPresence, hany]

/-- User-info that is erased from an addressed key is found. -/
theorem registryConfigKeyHasUserinfo_of_erased (laws : UrlLaws urls) {key : Str}
    (addressed : Addressed urls key) (carries : Carries urls [candidate key] key)
    (erased : publicRegistryConfigKey urls key ≠ whole urls (candidate key)) :
    registryConfigKeyHasUserinfo urls key = true := by
  cases hparse : urls.parse (candidate key) with
  | some url =>
      simp only [publicRegistryConfigKey, whole, hparse] at erased
      rw [registryConfigKeyHasUserinfo, hparse]
      exact (publicRegistryUrl_ne_iff laws url).mp erased
  | none =>
      rcases carries with ⟨s, userinfo, h, rfl⟩ | ⟨reading, mem, url, hsome, -⟩
      · exact registryConfigKeyHasUserinfo_of_none (addressed s (.inr ⟨userinfo, h, rfl⟩)).1 h
          hparse
      · rw [List.mem_singleton.mp mem, hparse] at hsome
        cases hsome

/-! ### Erased user-info in the environment -/

variable {env : Environment} {value : Str}

theorem envUrl_of_none {names : List Str} (hvalue : firstVar env names = some value)
    (hparse : urls.parse value = none) :
    envUrlIdentity urls env names = some (lit "<invalid>") ∧
      envUrlHasUserinfo urls env names = false := by
  simp only [envUrlIdentity, envUrlHasUserinfo, hvalue, Option.map_some, hparse, and_self]

/-- The registry of the environment: erased user-info is found exactly where the value is a
URL or has none. -/
theorem envUrlHasUserinfo_iff (laws : UrlLaws urls) {names : List Str}
    (hvalue : firstVar env names = some value) :
    (Carries urls [value] value → envUrlIdentity urls env names ≠ some (whole urls value) →
      envUrlHasUserinfo urls env names = true) ↔
    ((urls.parse value).isSome ∨ ¬ SpelledUserinfo value) := by
  cases hparse : urls.parse value with
  | some url =>
      refine iff_of_true (fun _ erased => ?_) (.inl rfl)
      simp only [envUrlIdentity, whole, hvalue, Option.map_some, hparse, ne_eq,
        Option.some.injEq] at erased
      simp only [envUrlHasUserinfo, hvalue, hparse]
      exact (publicRegistryUrl_ne_iff laws url).mp erased
  | none =>
      obtain ⟨hidentity, hauth⟩ := envUrl_of_none hvalue hparse
      have hwhole : whole urls value = value := by
        rw [whole, hparse]
      rw [hidentity, hauth, hwhole]
      constructor
      · intro h
        refine .inr fun hspelled => ?_
        refine Bool.false_ne_true (h (.inl hspelled) fun heq => ?_)
        have hat := at_mem_of_spelled hspelled
        rw [← Option.some.inj heq] at hat
        exact absurd hat (by decide)
      · rintro (hsome | hno)
        · cases hsome
        · rintro (hspelled | ⟨reading, mem, url, hsome, -⟩)
          · exact absurd hspelled hno
          · rw [List.mem_singleton.mp mem, hparse] at hsome
            cases hsome

theorem parseHosted_of_userinfo (laws : UrlLaws urls) {text : Str} {url : Url}
    (hparse : urls.parse text = some url) (h : urlHasUserinfo urls url = true) :
    parseHosted urls text = some url := by
  rw [parseHosted, hparse]
  exact Option.filter_some_pos (laws.userinfo_host url h)

/-- What is after the last `@` is not the whole. -/
theorem rsplitOnce_ne {text : Str} (h : '@' ∈ text) :
    ∃ before after, rsplitOnce '@' text = some (before, after) ∧ after ≠ text := by
  obtain ⟨xs, ys, heq, hno⟩ := List.eq_append_cons_of_mem (List.mem_reverse.mpr h)
  have htext : text = ys.reverse ++ '@' :: xs.reverse := by
    rw [← List.reverse_reverse text, heq]
    simp
  refine ⟨ys.reverse, xs.reverse, ?_, fun hsame => ?_⟩
  · rw [htext]
    exact rsplitOnce_append (by simpa using hno) _
  · have hlength := congrArg List.length (hsame.trans htext)
    simp only [List.length_append, List.length_cons] at hlength
    omega

/-- The replaced host of the environment: erased user-info is found unless it stands in front
of a host alone. -/
theorem envReplaceRegistryHostHasAuth_iff (laws : UrlLaws urls)
    (hvalue : firstVar env replaceRegistryHostNames = some value) :
    (Carries urls [trim isWhitespace value, lit "https://" ++ trim isWhitespace value]
        (trim isWhitespace value) →
      envReplaceRegistryHostIdentity urls env ≠ some (wholeHost urls (trim isWhitespace value)) →
      envReplaceRegistryHostHasAuth urls env = true) ↔
    ¬ HostOnlyUserinfo urls (trim isWhitespace value) := by
  simp only [envReplaceRegistryHostIdentity, envReplaceRegistryHostHasAuth, hvalue,
    Option.map_some, ne_eq, Option.some.injEq, wholeHost]
  generalize trim isWhitespace value = value
  by_cases hkeyword : value ∈ hostKeywords
  · refine iff_of_true (fun _ erased => ?_) fun h => h.1 hkeyword
    simp only [if_pos hkeyword, not_true] at erased
  rw [if_neg hkeyword, if_neg hkeyword]
  cases hhosted : parseHosted urls value with
  | some url =>
      refine iff_of_true (fun _ erased => ?_) fun h => ?_
      · refine (publicRegistryUrl_ne_iff laws url).mp fun heq => erased ?_
        show lit "url:" ++ publicRegistryUrl urls url = lit "url:" ++ urls.toText url
        rw [heq]
      · have hnone := h.2.1
        rw [hhosted] at hnone
        cases hnone
  | none =>
      cases hhttps : parseHosted urls (lit "https://" ++ value) with
      | some url =>
          -- The value is shown as the URL it is with `https://` in front.
          have hshown : (lit "hostname:" ++ envReplaceRegistryHostnameIdentity urls value =
              lit "hostname:" ++ urls.toText url) ↔
                publicRegistryUrl urls url = urls.toText url := by
            rw [List.append_cancel_left_eq, envReplaceRegistryHostnameIdentity, hhttps]
          simp only [hshown]
          constructor
          · intro h hhost
            have huserinfo : urlHasUserinfo urls url = true := by
              have hlast := hhost.2.2
              rw [hhttps] at hlast
              exact hlast
            obtain ⟨hparse, -⟩ := Option.filter_eq_some_iff.mp hhttps
            have hcarries : Carries urls [value, lit "https://" ++ value] value :=
              .inr ⟨_, List.mem_cons_of_mem _ List.mem_cons_self, url, hparse, huserinfo⟩
            exact Bool.false_ne_true
              (h hcarries ((publicRegistryUrl_ne_iff laws url).mpr huserinfo))
          · intro hno _ erased
            refine absurd ⟨hkeyword, hhosted, ?_⟩ hno
            rw [hhttps]
            exact (publicRegistryUrl_ne_iff laws url).mp erased
      | none =>
          -- The value is shown from its last `@` on.
          constructor
          · intro h hhost
            have hspelled : SpelledUserinfo value := by
              have hlast := hhost.2.2
              rw [hhttps] at hlast
              exact hlast
            obtain ⟨before, after, hsplit, hne⟩ := rsplitOnce_ne (at_mem_of_spelled hspelled)
            refine Bool.false_ne_true (h (.inl hspelled) fun heq => hne ?_)
            have hidentity : envReplaceRegistryHostnameIdentity urls value = after := by
              rw [envReplaceRegistryHostnameIdentity, hhttps, hsplit]
            exact hidentity.symm.trans (List.append_cancel_left heq)
          · rintro hno (hspelled | ⟨reading, mem, url, hparse, huserinfo⟩) _
            · refine absurd ⟨hkeyword, hhosted, ?_⟩ hno
              rw [hhttps]
              exact hspelled
            · have hfound := parseHosted_of_userinfo laws hparse huserinfo
              rcases List.mem_cons.mp mem with rfl | mem
              · rw [hhosted] at hfound
                cases hfound
              · rw [List.mem_singleton.mp mem, hhttps] at hfound
                cases hfound

/-! ### Two runs -/

/-- Credentials neither show in an identity nor are they missed. -/
structure CredentialFree (urls : UrlApi Url) (configs : ConfigApi Config)
    (npmrc : ResolvedNpmRc Url Config) (env : Environment) : Prop where
  identity : ∀ npmrc', SameButCredentials urls npmrc npmrc' →
    (npmConfigFingerprint urls configs npmrc').1 = (npmConfigFingerprint urls configs npmrc).1
  order : ∀ npmrc', Reordered npmrc npmrc' →
    npmConfigFingerprint urls configs npmrc' = npmConfigFingerprint urls configs npmrc
  presence : (npmConfigFingerprint urls configs npmrc).2 = npmAuthPresence urls configs npmrc
  registryUrl : ∀ url ∈ registryUrls npmrc, publicRegistryUrl urls url ≠ urls.toText url →
    (npmConfigFingerprint urls configs npmrc).2 = true
  registryKey : ∀ entry ∈ npmrc.registryConfigs.entries,
    Carries urls [candidate entry.1] entry.1 →
    publicRegistryConfigKey urls entry.1 ≠ whole urls (candidate entry.1) →
    (npmConfigFingerprint urls configs npmrc).2 = true
  registry : ∀ value, firstVar env registryNames = some value → Carries urls [value] value →
    envUrlIdentity urls env registryNames ≠ some (whole urls value) →
    envUrlHasUserinfo urls env registryNames = true
  replaceHost : ∀ value, firstVar env replaceRegistryHostNames = some value →
    Carries urls [trim isWhitespace value, lit "https://" ++ trim isWhitespace value]
      (trim isWhitespace value) →
    envReplaceRegistryHostIdentity urls env ≠ some (wholeHost urls (trim isWhitespace value)) →
    envReplaceRegistryHostHasAuth urls env = true

/-- Another key in the place of one. -/
theorem publicRegistryConfigKey_of_identity {npmrc : ResolvedNpmRc Url Config}
    (identity : ∀ npmrc', SameButCredentials urls npmrc npmrc' →
      (npmConfigFingerprint urls configs npmrc').1 = (npmConfigFingerprint urls configs npmrc).1)
    {key key' : Str} {config : Config} (mem : (key, config) ∈ npmrc.registryConfigs.entries)
    (same : SameSpelling key key')
    (fresh : key' ∉ npmrc.registryConfigs.entries.map Prod.fst) :
    publicRegistryConfigKey urls key' = publicRegistryConfigKey urls key := by
  obtain ⟨before, after, hentries⟩ := List.append_of_mem mem
  have hnodup := npmrc.registryConfigs.nodup
  have hfresh := fresh
  rw [hentries, List.map_append, List.map_cons, List.nodup_middle, List.nodup_cons] at hnodup
  rw [hentries, List.map_append, List.map_cons] at hfresh
  have hnodup' : ((before ++ (key', config) :: after).map Prod.fst).Nodup := by
    rw [List.map_append, List.map_cons, List.nodup_middle, List.nodup_cons]
    refine ⟨fun hmem => hfresh ?_, hnodup.2⟩
    rcases List.mem_append.mp hmem with hmem | hmem
    · exact List.mem_append_left _ hmem
    · exact List.mem_append_right _ (List.mem_cons_of_mem _ hmem)
  have hrelated : List.Forall₂ (fun e e' : Str × Config => SameSpelling e.1 e'.1)
      npmrc.registryConfigs.entries (before ++ (key', config) :: after) := by
    have hrefl : ∀ entries : List (Str × Config),
        List.Forall₂ (fun e e' : Str × Config => SameSpelling e.1 e'.1) entries entries :=
      fun entries => List.forall₂_same.mpr fun entry _ => .refl entry.1
    rw [hentries]
    exact List.rel_append (hrefl before) (.cons same (hrefl after))
  have hsame := identity
    { npmrc with registryConfigs := ⟨before ++ (key', config) :: after, hnodup'⟩ }
    { default := .refl _
      scopes := ⟨_, .refl _, List.forall₂_same.mpr fun entry _ => ⟨rfl, .refl _⟩⟩
      registryConfigs := ⟨_, .refl _, hrelated⟩
      replaceHost := .refl _
      minReleaseAge := rfl
      trustPolicy := rfl
      trustPolicyIgnore := rfl
      trustPolicyExclude := rfl }
  rw [npmConfigFingerprint_fst, npmConfigFingerprint_fst] at hsame
  have hperm := perm_of_insertionSort_eq (congrArg NpmConfigFingerprint.registryConfigs hsame)
  rw [hentries, List.map_append, List.map_append, List.map_cons, List.map_cons] at hperm
  have hcons := (List.perm_middle.symm.trans hperm).trans List.perm_middle
  by_contra hne
  have hcount := hcons.count_eq (publicRegistryConfigKey urls key')
  rw [List.count_cons_self, List.count_cons_of_ne (Ne.symm hne)] at hcount
  omega

/-- A word longer than all keys makes a new key. -/
theorem fresh_withUserinfo (keys : List Str) (s : Spelling) (more : Str) :
    s.withUserinfo (List.replicate ((keys.map List.length).sum + 1) 'a' ++ more) ∉ keys := by
  intro mem
  have hle : (s.withUserinfo
      (List.replicate ((keys.map List.length).sum + 1) 'a' ++ more)).length ≤
        (keys.map List.length).sum :=
    List.single_le_sum (fun _ _ => Nat.zero_le _) _ (List.mem_map_of_mem mem)
  simp only [Spelling.withUserinfo, List.length_append, List.length_replicate] at hle
  omega

theorem userinfoText_word (n : Nat) (more : Str) (h : ∀ c ∈ more, c ∉ authorityEnd) :
    UserinfoText (List.replicate (n + 1) 'a' ++ more) := by
  refine ⟨by simp [List.replicate_succ], fun c mem => ?_⟩
  rcases List.mem_append.mp mem with mem | mem
  · rw [(List.mem_replicate.mp mem).2]
    decide
  · exact h c mem

/-- What a key without user-info that is no URL shows is not redacted. -/
theorem publicRegistryConfigKey_plain {s : Spelling} (hlead : s.lead ≠ .bare)
    (hparse : urls.parse (candidate s.plain) = none) (hat : '@' ∉ s.tail) :
    publicRegistryConfigKey urls s.plain ≠ lit "<redacted-registry>" := by
  obtain ⟨name, hname, hcandidate⟩ := exists_scheme hlead
  have htext : candidate s.plain = name ++ (lit "://" ++ (s.host ++ s.tail)) := hcandidate _
  have hno : '@' ∉ candidate s.plain := by
    rw [htext]
    simp only [List.mem_append, not_or]
    exact ⟨hname.notMem (by decide) (by decide), by decide,
      fun mem => (s.hostText.chars _ mem).2 rfl, hat⟩
  rw [publicRegistryConfigKey, hparse]
  show (if '@' ∈ candidate s.plain then _ else _) ≠ _
  rw [if_neg hno, htext]
  have hhead := hname.head
  cases name with
  | nil => cases hhead
  | cons c name =>
      intro heq
      have hc : c = '<' := (List.cons.inj heq).1
      have halpha : c.isAlpha = true := Option.some.inj hhead
      rw [hc] at halpha
      exact absurd halpha (by decide)

/-- Keys whose user-info never matters are robust in every spelling. -/
theorem addressed_of_identity (laws : UrlLaws urls) {npmrc : ResolvedNpmRc Url Config}
    (identity : ∀ npmrc', SameButCredentials urls npmrc npmrc' →
      (npmConfigFingerprint urls configs npmrc').1 = (npmConfigFingerprint urls configs npmrc).1)
    {entry : Str × Config} (mem : entry ∈ npmrc.registryConfigs.entries) :
    Addressed urls entry.1 := by
  intro s hspelling
  let keys := npmrc.registryConfigs.entries.map Prod.fst
  let n := (keys.map List.length).sum
  -- A longer word and the same word with a password, neither of them a key yet.
  have hword : UserinfoText (List.replicate (n + 1) 'a') := by
    have := userinfoText_word n [] (by simp)
    rwa [List.append_nil] at this
  have hpassword : UserinfoText (List.replicate (n + 1) 'a' ++ [':', 'p']) :=
    userinfoText_word n _ (forall_mem_of_all (by decide))
  have hfreshWord : s.withUserinfo (List.replicate (n + 1) 'a') ∉ keys := by
    have := fresh_withUserinfo keys s []
    rwa [List.append_nil] at this
  have hsame : ∀ {userinfo}, UserinfoText userinfo →
      SameSpelling entry.1 (s.withUserinfo userinfo) := by
    intro userinfo h
    rcases hspelling with hplain | ⟨userinfo', h', hwith⟩
    · exact hplain ▸ .added s h
    · exact hwith ▸ .other s h' h
  have hwordShown := publicRegistryConfigKey_of_identity identity mem (hsame hword) hfreshWord
  have hlead : s.lead ≠ .bare := by
    intro hbare
    have hpasswordShown := publicRegistryConfigKey_of_identity identity mem (hsame hpassword)
      (fresh_withUserinfo keys s [':', 'p'])
    exact publicRegistryConfigKey_bare laws hbare n (hwordShown.trans hpasswordShown.symm)
  refine ⟨hlead, ?_⟩
  by_contra hno
  obtain ⟨hnone, hat⟩ := not_or.mp hno
  have hparse : urls.parse (candidate s.plain) = none := by simpa using hnone
  have hredacted : publicRegistryConfigKey urls (s.withUserinfo (List.replicate (n + 1) 'a')) =
      lit "<redacted-registry>" := by
    obtain ⟨user, password, hmap⟩ := parse_withUserinfo laws hlead hword
    rw [hparse] at hmap
    exact publicRegistryConfigKey_redacted hmap (at_mem_withUserinfo s _)
  have hplainShown : publicRegistryConfigKey urls (s.withUserinfo (List.replicate (n + 1) 'a')) =
      publicRegistryConfigKey urls s.plain := by
    by_cases hmem : s.plain ∈ keys
    · obtain ⟨⟨key, config⟩, hentry, hkey⟩ := List.mem_map.mp hmem
      have hkey : key = s.plain := hkey
      exact publicRegistryConfigKey_of_identity identity (hkey ▸ hentry) (.added s hword)
        hfreshWord
    · rcases hspelling with hplain | ⟨userinfo, h, hwith⟩
      · exact absurd (List.mem_map.mpr ⟨entry, mem, hplain⟩) hmem
      · exact hwordShown.trans (publicRegistryConfigKey_of_identity identity mem
          (hwith ▸ .removed s h) hmem).symm
  exact publicRegistryConfigKey_plain hlead hparse hat (hplainShown.symm.trans hredacted)

/-- Credentials neither show in an identity nor are they missed exactly where every registry
key that names an authority names it with `//` or a scheme and is a URL without its user-info
(or is redacted in any case), the registry of the environment is a URL or has no user-info,
and the replaced host of the environment is no host alone with user-info. -/
theorem credentialFree_iff (laws : UrlLaws urls) (npmrc : ResolvedNpmRc Url Config)
    (env : Environment) :
    CredentialFree urls configs npmrc env ↔
      (∀ entry ∈ npmrc.registryConfigs.entries, Addressed urls entry.1) ∧
      (∀ value, firstVar env registryNames = some value →
        (urls.parse value).isSome ∨ ¬ SpelledUserinfo value) ∧
      ∀ value, firstVar env replaceRegistryHostNames = some value →
        ¬ HostOnlyUserinfo urls (trim isWhitespace value) := by
  constructor
  · intro free
    refine ⟨fun entry mem => addressed_of_identity laws free.identity mem, ?_, ?_⟩
    · intro value hvalue
      exact (envUrlHasUserinfo_iff laws hvalue).mp (free.registry value hvalue)
    · intro value hvalue
      exact (envReplaceRegistryHostHasAuth_iff laws hvalue).mp (free.replaceHost value hvalue)
  · rintro ⟨addressed, hregistry, hhost⟩
    refine
      { identity := fun npmrc' h => npmConfigFingerprint_same laws addressed h
        order := fun npmrc' h => npmConfigFingerprint_reordered h
        presence := npmConfigFingerprint_snd npmrc
        registryUrl := fun url mem erased => ?_
        registryKey := fun entry mem carries erased => ?_
        registry := fun value hvalue =>
          (envUrlHasUserinfo_iff laws hvalue).mpr (hregistry value hvalue)
        replaceHost := fun value hvalue =>
          (envReplaceRegistryHostHasAuth_iff laws hvalue).mpr (hhost value hvalue) }
    · rw [npmConfigFingerprint_snd]
      exact npmAuthPresence_of_url mem ((publicRegistryUrl_ne_iff laws url).mp erased)
    · rw [npmConfigFingerprint_snd]
      exact npmAuthPresence_of_key mem
        (registryConfigKeyHasUserinfo_of_erased laws (addressed entry mem) carries erased)

end Results

/-- Registry configurations that are a token or nothing. -/
def tokens : ConfigApi (Option Str) where
  hasAuth := Option.isSome
  certfile _ := none
  keyfile _ := none

/-- The public registry and nothing else. -/
def publicNpmrc : ResolvedNpmRc PlainUrl (Option Str) where
  defaultConfig :=
    { registryUrl := ⟨lit "https", some ⟨[], none, lit "registry.npmjs.org"⟩, lit "/"⟩
      config := none }
  scopes := ⟨[], by decide⟩
  registryConfigs := ⟨[], by decide⟩
  replaceRegistryHost := .npmJs
  minReleaseAgeDays := none
  trustPolicy := .off
  trustPolicyIgnoreAfterMinutes := none
  trustPolicyExclude := []

/-- An environment in which one variable is set. -/
def envOf (name value : Str) : Environment := fun name' =>
  if name' = name then some (encodeUtf8 value) else none

/-- A host alone, with a user and a password. -/
def hostOnlyEnv : Environment :=
  envOf (lit "NPM_CONFIG_REPLACE_REGISTRY_HOST") (lit "user:pass@host.example")

theorem credentialFree_iff_hostOnly :
    CredentialFree plainUrls tokens publicNpmrc hostOnlyEnv ↔
      (∀ entry ∈ publicNpmrc.registryConfigs.entries, Addressed plainUrls entry.1) ∧
      (∀ value, firstVar hostOnlyEnv registryNames = some value →
        (plainUrls.parse value).isSome ∨ ¬ SpelledUserinfo value) ∧
      ∀ value, firstVar hostOnlyEnv replaceRegistryHostNames = some value →
        ¬ HostOnlyUserinfo plainUrls (trim isWhitespace value) :=
  credentialFree_iff plainUrls_laws publicNpmrc hostOnlyEnv

theorem envOf_var (name value : Str) (names : List Str) :
    firstVar (envOf name value) (name :: names) = some value := by
  have hvar : (envOf name value).var name = some value := by
    rw [Environment.var, envOf, if_pos rfl]
    exact decodeUtf8_encodeUtf8 value
  rw [firstVar, List.findSome?_cons, hvar]

/-- The password of a host alone is erased from the identity and not found. -/
theorem credentialFree_hostOnly :
    ¬ CredentialFree plainUrls tokens publicNpmrc hostOnlyEnv := by
  intro free
  have hvalue : firstVar hostOnlyEnv replaceRegistryHostNames =
      some (lit "user:pass@host.example") := envOf_var _ _ _
  have hauth : envReplaceRegistryHostHasAuth plainUrls hostOnlyEnv = false := by
    rw [envReplaceRegistryHostHasAuth, hvalue]
    decide
  have hidentity : envReplaceRegistryHostIdentity plainUrls hostOnlyEnv =
      some (lit "hostname:https://host.example/") := by
    rw [envReplaceRegistryHostIdentity, hvalue]
    decide
  have hcarries : Carries plainUrls
      [trim isWhitespace (lit "user:pass@host.example"),
        lit "https://" ++ trim isWhitespace (lit "user:pass@host.example")]
      (trim isWhitespace (lit "user:pass@host.example")) :=
    .inr ⟨_, List.mem_cons_of_mem _ List.mem_cons_self,
      ⟨lit "https", some ⟨lit "user", some (lit "pass"), lit "host.example"⟩, lit "/"⟩,
      by decide, by decide⟩
  have hfound := free.replaceHost _ hvalue hcarries (by rw [hidentity]; decide)
  rw [hauth] at hfound
  cases hfound

end Libdeno.NpmCache
