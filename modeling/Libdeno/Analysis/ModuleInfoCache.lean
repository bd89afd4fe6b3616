import Libdeno.Library.Text
import Libdeno.Library.Transition
import Mathlib.Data.List.AList
import Mathlib.Data.Set.Function

/-!
# Libdeno.Analysis.ModuleInfoCache

`ModuleInfoCache` of `analysis_cache.rs`: the module analysis that all runs of the process
share. `analyze` looks the specifier up, takes the entry if its hash is the one of the media
type and the source at hand, and otherwise analyses and stores. The lock is held for the
lookup and for the insertion, not in between, so any number of analyses run at once.

The hash is over the media type's name followed by the source, with nothing in between.
What is hashed does not determine the two, then, where one name begins another: `Clash`.
Nothing else can go wrong: `analyze_sound`.
-/

namespace Libdeno.Analysis

/-- What is analysed. -/
structure Triple (S M : Type) where
  specifier : S
  source : List UInt8
  mediaType : M

/-- What the cache uses: the `Debug` names of the media types, one for each, the hash of the
bytes written to it, the analyzer behind the cache, and the capacity. -/
structure Env (S M I E : Type) where
  debug : M → List UInt8
  debug_injective : Function.Injective debug
  finish : List UInt8 → UInt64
  defaultAnalyze : Triple S M → Except E I
  capacity : Nat
  capacity_pos : 0 < capacity

/-- The entries by specifier: the hash and the analysis. -/
abbrev Entries (S I : Type) := AList fun _ : S => UInt64 × I

section

variable {S M I E : Type} [DecidableEq S] (env : Env S M I E)

/-- The bytes fed to the hash. -/
def Env.stream (t : Triple S M) : List UInt8 := env.debug t.mediaType ++ t.source

/-- `module_info_hash` -/
def Env.moduleInfoHash (t : Triple S M) : UInt64 := env.finish (env.stream t)

/-- The first section of `analyze`: an entry of that hash. -/
def Env.cached (entries : Entries S I) (t : Triple S M) : Option I :=
  match entries.lookup t.specifier with
  | some (cachedHash, info) => if cachedHash = env.moduleInfoHash t then some info else none
  | none => none

/-- The last section of `analyze`: a full cache is emptied first. -/
def Env.store (entries : Entries S I) (t : Triple S M) (info : I) : Entries S I :=
  let entries := if env.capacity ≤ entries.entries.length then ∅ else entries
  entries.insert t.specifier (env.moduleInfoHash t, info)

/-- `analyze`, when nothing else happens. -/
def Env.analyze (entries : Entries S I) (t : Triple S M) : Except E I × Entries S I :=
  match env.cached entries t with
  | some info => (.ok info, entries)
  | none =>
      match env.defaultAnalyze t with
      | .error error => (.error error, entries)
      | .ok info => (.ok info, env.store entries t info)

/-! ### Analyses at once -/

/-- The cache, the analyses between their two sections, and as history what was asked for
and what was returned. -/
structure State (S M I E : Type) where
  entries : Entries S I
  running : List (Triple S M)
  asked : List (Triple S M)
  returned : List (Triple S M × Except E I)

def State.new : State S M I E :=
  { entries := ∅, running := [], asked := [], returned := [] }

/-- The sections of the analyses. -/
inductive Step : State S M I E → State S M I E → Prop
  | hit (s : State S M I E) (t : Triple S M) (info : I)
      (found : env.cached s.entries t = some info) :
      Step s { s with asked := t :: s.asked, returned := (t, .ok info) :: s.returned }
  | miss (s : State S M I E) (t : Triple S M) (missing : env.cached s.entries t = none) :
      Step s { s with running := t :: s.running, asked := t :: s.asked }
  | failed (s : State S M I E) (before after : List (Triple S M)) (t : Triple S M) (error : E)
      (runs : s.running = before ++ t :: after)
      (result : env.defaultAnalyze t = .error error) :
      Step s { s with running := before ++ after,
                      returned := (t, .error error) :: s.returned }
  | stored (s : State S M I E) (before after : List (Triple S M)) (t : Triple S M) (info : I)
      (runs : s.running = before ++ t :: after) (result : env.defaultAnalyze t = .ok info) :
      Step s { s with entries := env.store s.entries t info, running := before ++ after,
                      returned := (t, .ok info) :: s.returned }

/-- The name of `u`'s media type goes on after the one of `t`'s, and `t`'s source is what it
goes on with followed by `u`'s source. -/
def Env.Clash (t u : Triple S M) : Prop :=
  t.specifier = u.specifier ∧ ∃ more, more ≠ [] ∧
    env.debug u.mediaType = env.debug t.mediaType ++ more ∧ t.source = more ++ u.source

variable {env}

/-! ### What is hashed -/

omit [DecidableEq S] in
/-- Two triples of one specifier that are hashed alike are the same or clash. -/
theorem eq_or_clash {t u : Triple S M} (hspecifier : t.specifier = u.specifier)
    (hstream : env.stream t = env.stream u) : t = u ∨ env.Clash t u ∨ env.Clash u t := by
  rcases List.append_eq_append_iff.mp hstream with ⟨more, hu, ht⟩ | ⟨more, ht, hu⟩
  · by_cases hmore : more = []
    · left
      rw [hmore, List.append_nil] at hu
      rw [hmore, List.nil_append] at ht
      cases t
      cases u
      simp only at hspecifier hu ht
      rw [hspecifier, ht, env.debug_injective hu]
    · exact .inr (.inl ⟨hspecifier, more, hmore, hu, ht⟩)
  · by_cases hmore : more = []
    · left
      rw [hmore, List.append_nil] at ht
      rw [hmore, List.nil_append] at hu
      cases t
      cases u
      simp only at hspecifier hu ht
      rw [hspecifier, hu, env.debug_injective ht]
    · exact .inr (.inr ⟨hspecifier.symm, more, hmore, ht, hu⟩)

omit [DecidableEq S] in
theorem Env.Clash.stream_eq {t u : Triple S M} (h : env.Clash t u) :
    env.stream t = env.stream u := by
  obtain ⟨-, more, -, hdebug, hsource⟩ := h
  rw [Env.stream, Env.stream, hdebug, hsource, List.append_assoc]

/-! ### Entries -/

theorem cached_eq_some {entries : Entries S I} {t : Triple S M} {info : I}
    (h : env.cached entries t = some info) :
    entries.lookup t.specifier = some (env.moduleInfoHash t, info) := by
  rw [Env.cached] at h
  cases hfound : entries.lookup t.specifier with
  | none =>
      rw [hfound] at h
      cases h
  | some entry =>
      obtain ⟨cachedHash, found⟩ := entry
      rw [hfound] at h
      simp only at h
      split_ifs at h with hhash
      rw [hhash, Option.some.inj h]

/-- An entry after an insertion is the new one or was there before. -/
theorem lookup_store {entries : Entries S I} {t : Triple S M} {info : I} {specifier : S}
    {entry : UInt64 × I} (h : (env.store entries t info).lookup specifier = some entry) :
    (specifier = t.specifier ∧ entry = (env.moduleInfoHash t, info)) ∨
      entries.lookup specifier = some entry := by
  rw [Env.store] at h
  by_cases hsame : specifier = t.specifier
  · subst hsame
    rw [AList.lookup_insert] at h
    exact .inl ⟨rfl, (Option.some.inj h).symm⟩
  · rw [AList.lookup_insert_ne hsame] at h
    by_cases hfull : env.capacity ≤ entries.entries.length
    · rw [if_pos hfull, AList.lookup_empty] at h
      cases h
    · rw [if_neg hfull] at h
      exact .inr h

theorem length_store (entries : Entries S I) (t : Triple S M) (info : I) :
    (env.store entries t info).entries.length ≤ env.capacity := by
  have hpos := env.capacity_pos
  rw [Env.store, AList.entries_insert, List.length_cons]
  by_cases hfull : env.capacity ≤ entries.entries.length
  · rw [if_pos hfull]
    show List.length [] + 1 ≤ _
    exact hpos
  · rw [if_neg hfull]
    have := (List.kerase_sublist t.specifier entries.entries).length_le
    omega

/-! ### Every run -/

/-- Every entry is the analysis of something that was asked for. -/
structure Sound (env : Env S M I E) (s : State S M I E) : Prop where
  entries : ∀ {specifier entry}, s.entries.lookup specifier = some entry →
    ∃ t ∈ s.asked, t.specifier = specifier ∧ entry.1 = env.moduleInfoHash t ∧
      env.defaultAnalyze t = .ok entry.2
  running : ∀ t ∈ s.running, t ∈ s.asked
  size : s.entries.entries.length ≤ env.capacity

theorem Sound.new : Sound env (State.new : State S M I E) where
  entries := by
    intro specifier entry h
    cases h
  running := by
    intro t mem
    cases mem
  size := Nat.zero_le _

theorem mem_of_split {α : Type} {before after : List α} {x y : α}
    (h : y ∈ before ++ after) : y ∈ before ++ x :: after := by
  rcases List.mem_append.mp h with h | h
  · exact List.mem_append_left _ h
  · exact List.mem_append_right _ (List.mem_cons_of_mem _ h)

theorem Sound.step {s s' : State S M I E} (h : Sound env s) (step : Step env s s') :
    Sound env s' := by
  cases step with
  | hit t info found =>
      refine ⟨?_, fun t mem => List.mem_cons_of_mem _ (h.running t mem), h.size⟩
      intro specifier entry hentry
      obtain ⟨u, hu, hrest⟩ := h.entries hentry
      exact ⟨u, List.mem_cons_of_mem _ hu, hrest⟩
  | miss t missing =>
      refine ⟨?_, ?_, h.size⟩
      · intro specifier entry hentry
        obtain ⟨u, hu, hrest⟩ := h.entries hentry
        exact ⟨u, List.mem_cons_of_mem _ hu, hrest⟩
      · intro u mem
        rcases List.mem_cons.mp mem with rfl | mem
        · exact List.mem_cons_self
        · exact List.mem_cons_of_mem _ (h.running u mem)
  | failed before after t error runs result =>
      refine ⟨h.entries, ?_, h.size⟩
      intro u mem
      exact h.running u (runs ▸ mem_of_split mem)
  | stored before after t info runs result =>
      refine ⟨?_, ?_, length_store s.entries t info⟩
      · intro specifier entry hentry
        rcases lookup_store hentry with ⟨hspecifier, hnew⟩ | hold
        · have hasked := h.running t (runs ▸ List.mem_append_right _ List.mem_cons_self)
          exact ⟨t, hasked, hspecifier.symm, by rw [hnew], by rw [hnew]; exact result⟩
        · exact h.entries hold
      · intro u mem
        exact h.running u (runs ▸ mem_of_split mem)

theorem sound_of_reachable {s : State S M I E}
    (reachable : Transition.Reachable (· = State.new) (Step env) s) : Sound env s := by
  refine Transition.Reachable.invariant ?_ (fun s s' h step => h.step step) reachable
  rintro s rfl
  exact Sound.new

/-- What was asked for can be told apart: the hash is injective on what was fed to it, and
no two triples clash. -/
structure Apart (env : Env S M I E) (s : State S M I E) : Prop where
  injective : Set.InjOn env.finish {stream | ∃ t ∈ s.asked, stream = env.stream t}
  noClash : ∀ t ∈ s.asked, ∀ u ∈ s.asked, ¬ env.Clash t u

omit [DecidableEq S] in
theorem Apart.mono {s s' : State S M I E} (h : Apart env s')
    (asked : ∀ t ∈ s.asked, t ∈ s'.asked) : Apart env s where
  injective := by
    refine h.injective.mono ?_
    rintro stream ⟨t, ht, heq⟩
    exact ⟨t, asked t ht, heq⟩
  noClash t ht u hu := h.noClash t (asked t ht) u (asked u hu)

/-- An entry that is found is the analysis of what was asked for. -/
theorem Sound.cached {s : State S M I E} (h : Sound env s) {t : Triple S M} {info : I}
    (asked : t ∈ s.asked) (found : env.cached s.entries t = some info)
    (apart : Apart env s) : env.defaultAnalyze t = .ok info := by
  obtain ⟨u, hu, hspecifier, hhash, hresult⟩ := h.entries (cached_eq_some found)
  have hstream : env.stream u = env.stream t :=
    apart.injective ⟨u, hu, rfl⟩ ⟨t, asked, rfl⟩ hhash.symm
  rcases eq_or_clash hspecifier hstream with rfl | hclash | hclash
  · exact hresult
  · exact absurd hclash (apart.noClash u hu t asked)
  · exact absurd hclash (apart.noClash t asked u hu)

/-- What was returned is the analysis of what it was returned for. -/
def Returns (env : Env S M I E) (s : State S M I E) : Prop :=
  ∀ t result, (t, result) ∈ s.returned → result = env.defaultAnalyze t

theorem Returns.step {s s' : State S M I E} (hsound : Sound env s) (step : Step env s s')
    (ih : Apart env s → Returns env s) (apart : Apart env s') : Returns env s' := by
  intro t result mem
  have hsound' := hsound.step step
  cases step with
  | hit t' info found =>
      rcases List.mem_cons.mp mem with heq | mem
      · cases heq
        exact (hsound'.cached List.mem_cons_self found apart).symm
      · exact ih (apart.mono fun _ => List.mem_cons_of_mem _) t result mem
  | miss t' missing => exact ih (apart.mono fun _ => List.mem_cons_of_mem _) t result mem
  | failed before after t' error runs hresult =>
      rcases List.mem_cons.mp mem with heq | mem
      · cases heq
        exact hresult.symm
      · exact ih (apart.mono fun _ mem => mem) t result mem
  | stored before after t' info runs hresult =>
      rcases List.mem_cons.mp mem with heq | mem
      · cases heq
        exact hresult.symm
      · exact ih (apart.mono fun _ mem => mem) t result mem

/-- Where two triples do clash, the second gets the first one's analysis. -/
theorem analyze_clash {entries : Entries S I} {t u : Triple S M} {info : I}
    (clash : env.Clash t u ∨ env.Clash u t) (missing : env.cached entries t = none)
    (result : env.defaultAnalyze t = .ok info) :
    (env.analyze (env.analyze entries t).2 u).1 = .ok info := by
  have hsame : u.specifier = t.specifier ∧ env.moduleInfoHash u = env.moduleInfoHash t := by
    rcases clash with h | h
    · exact ⟨h.1.symm, congrArg env.finish h.stream_eq.symm⟩
    · exact ⟨h.1, congrArg env.finish h.stream_eq⟩
  have hfirst : (env.analyze entries t).2 = env.store entries t info := by
    rw [Env.analyze, missing]
    simp only
    rw [result]
  have hcached : env.cached (env.store entries t info) u = some info := by
    rw [Env.cached, Env.store, hsame.1, AList.lookup_insert]
    simp only
    rw [if_pos hsame.2.symm]
  rw [hfirst, Env.analyze, hcached]

/-- One call after another is a run of its sections. -/
theorem run_analyze (env : Env S M I E) (s : State S M I E) (t : Triple S M) :
    ∃ s', Transition.Run (Step env) s s' ∧ s'.entries = (env.analyze s.entries t).2 ∧
      s'.asked = t :: s.asked ∧ s'.running = s.running ∧
      s'.returned = (t, (env.analyze s.entries t).1) :: s.returned := by
  rw [Env.analyze]
  cases hcached : env.cached s.entries t with
  | some info => exact ⟨_, .single (.hit s t info hcached), rfl, rfl, rfl, rfl⟩
  | none =>
      have hmiss := Step.miss s t hcached
      cases hresult : env.defaultAnalyze t with
      | error error =>
          exact ⟨_, (Relation.ReflTransGen.single hmiss).tail
            (.failed _ [] s.running t error rfl hresult), rfl, rfl, rfl, rfl⟩
      | ok info =>
          exact ⟨_, (Relation.ReflTransGen.single hmiss).tail
            (.stored _ [] s.running t info rfl hresult), rfl, rfl, rfl, rfl⟩

end

/-! ### A clash -/

/-- Two of the media types, with the names they have. -/
inductive JsonType where
  | json
  | jsonc
  deriving DecidableEq

def JsonType.name : JsonType → List UInt8
  | .json => Text.ascii "Json"
  | .jsonc => Text.ascii "Jsonc"

/-- An analyzer that says what it was given. -/
def jsonEnv : Env Unit JsonType (JsonType × List UInt8) Unit where
  debug := JsonType.name
  debug_injective := by
    intro a b h
    cases a <;> cases b <;> first | rfl | exact absurd h (by decide)
  finish bytes := bytes.foldl (fun n b => 31 * n + b.toUInt64) 7
  defaultAnalyze t := .ok (t.mediaType, t.source)
  capacity := 8192
  capacity_pos := by decide

end Libdeno.Analysis
