import Libdeno.Io
import Libdeno.Library.Pool
import Libdeno.Library.Transition
import Libdeno.NpmCache.SnapshotCache
import Libdeno.NpmCache.Stability

/-!
# Libdeno.NpmCache.Provenance

Where the snapshots of the process come from. A build captures the manifest of its inputs, looks
its key up in the cache, and is handed out if the manifest is still current; a run on a stack
adds to the resolution of that stack, and one that succeeded saves it, if the manifest is current
then. Builds and runs of any number of threads interleave, and each may fail or be dropped
wherever it stands.

A snapshot that is served to a build was saved by a run on an accepted stack of the same
identity; it is the last one saved for it before the lookup, and was the resolution of that
stack. No project with a lockfile, a `node_modules` of its own or credentials takes part. If
hashes confuse no two of the files involved, the files of the two projects mean the same
(`served_snapshot_provenance`).
-/

namespace Libdeno.NpmCache.Provenance

open Libdeno.NpmCache
open FifoMap (Op)

/-! ### The program -/

/-- `ManagedNpmSnapshotKey`. -/
structure ManagedNpmSnapshotKey where
  identity : ResolverInputIdentity
  deriving DecidableEq

/-- `managed_snapshot_key`. -/
def managedSnapshotKey (manifest : ResolverInputManifest) : Option ManagedNpmSnapshotKey :=
  if manifest.identity.byonm || manifest.identity.lockfilePresent ||
      manifest.probe.npmrcHasAuth then
    none
  else
    some { identity := manifest.identity }

/-- `NpmResolver`, with what a managed one has resolved. -/
inductive NpmResolver (Snapshot : Type)
  | managed (resolution : Snapshot)
  | byonm

abbrev Cache (Snapshot : Type) := SnapshotCache ManagedNpmSnapshotKey Snapshot

/-- `resolve_npm_resolution_snapshot`, the callback of the installer. -/
def resolveNpmResolutionSnapshot {Snapshot : Type} (cache : Cache Snapshot)
    (manifest : ResolverInputManifest) : Option Snapshot :=
  (managedSnapshotKey manifest).bind cache.get

section System

/-- The crates the manifest rests on. -/
structure Crates where
  Url : Type
  Config : Type
  hashing : Hashing
  urls : UrlApi Url
  configs : ConfigApi Config

variable {Snapshot : Type} (crates : Crates)

/-- What a build read, and the manifest it made of it. -/
structure Parse where
  initialCwd : PathBuf
  configStartPaths : List PathBuf
  dir : WorkspaceDirectory
  npmrc : ResolvedNpmRc crates.Url crates.Config
  inputs : WorkspaceResolverInputs
  reads : Reads
  manifest : ResolverInputManifest
  built : manifestFromWorkspace crates.hashing crates.urls crates.configs initialCwd
    configStartPaths dir npmrc inputs reads = .ok manifest

/-- A run's call of `insert`, with the stack and what its check read. -/
structure Save (Snapshot : Type) where
  stack : Nat
  reads : Reads
  key : ManagedNpmSnapshotKey
  snapshot : Snapshot

def Save.op (save : Save Snapshot) : Op ManagedNpmSnapshotKey Snapshot :=
  .insert save.key save.snapshot

/-- `SharedServices`, as far as npm goes. -/
structure Stack (Snapshot : Type) where
  parse : Parse crates
  npmResolver : Except String (NpmResolver Snapshot)
  /-- `new_with_timing` returned it. -/
  published : Bool
  /-- What the lookup of its build came to, the saves before it, and all its resolution ever
  was; no part of the program. -/
  served : Option Snapshot
  before : List (Save Snapshot)
  resolutions : List Snapshot

/-- `save_npm_snapshot_cache`, up to the call of `insert`. -/
def saveNpmSnapshotCache (stack : Stack crates Snapshot) (reads : Reads) :
    Option (ManagedNpmSnapshotKey × Snapshot) :=
  if isCurrent crates.hashing crates.urls stack.parse.manifest reads then
    match stack.npmResolver with
    | .ok (.managed resolution) =>
        (managedSnapshotKey stack.parse.manifest).map fun key => (key, resolution)
    | _ => none
  else
    none

/-- The stack of a build: a managed resolver asked the cache when it was initialized. -/
def Stack.new (parse : Parse crates) (cache : Cache Snapshot)
    (before : List (Save Snapshot)) (npmResolver : Except String (NpmResolver Snapshot)) :
    Stack crates Snapshot where
  parse
  npmResolver
  published := false
  served :=
    match npmResolver with
    | .ok (.managed _) => resolveNpmResolutionSnapshot cache parse.manifest
    | _ => none
  before
  resolutions :=
    match npmResolver with
    | .ok (.managed resolution) => [resolution]
    | _ => []

/-- The stack is returned. -/
def Stack.publish (stack : Stack crates Snapshot) : Stack crates Snapshot :=
  { stack with published := true }

/-- The graph build of a run adds to a managed resolution. -/
def Stack.resolve (resolution : Snapshot) (stack : Stack crates Snapshot) :
    Stack crates Snapshot :=
  match stack.npmResolver with
  | .ok (.managed _) =>
      { stack with
        npmResolver := .ok (.managed resolution)
        resolutions := stack.resolutions ++ [resolution] }
  | _ => stack

/-- What the threads of a process share. -/
structure Memory (Snapshot : Type) where
  cache : Cache Snapshot
  services : List (Stack crates Snapshot)
  /-- The calls of `insert` so far; no part of the program. -/
  saves : List (Save Snapshot)

/-- A build or a run. -/
inductive Task (Snapshot : Type)
  /-- A build has its manifest. -/
  | resolving (parse : Parse crates)
  /-- A build has its stack. -/
  | assembled (stack : Nat)
  | running (stack : Nat)
  /-- The run succeeded. -/
  | saving (stack : Nat)
  | inserting (save : Save Snapshot)
  | done

variable {crates}

/-- One step of a build or a run. -/
inductive TaskStep (m : Memory crates Snapshot) :
    Task crates Snapshot → Memory crates Snapshot →
      Task crates Snapshot → List (Task crates Snapshot) → Prop
  | lookup {parse : Parse crates}
      (npmResolver : Except String (NpmResolver Snapshot)) :
      TaskStep m (.resolving parse)
        { m with services := m.services ++ [.new crates parse m.cache m.saves npmResolver] }
        (.assembled m.services.length) []
  | accept {i : Nat} {stack : Stack crates Snapshot} {reads : Reads} :
      m.services[i]? = some stack →
      isCurrent crates.hashing crates.urls stack.parse.manifest reads = true →
      TaskStep m (.assembled i) { m with services := m.services.modify i (.publish crates) }
        .done []
  | resolve {i : Nat} (resolution : Snapshot) :
      TaskStep m (.running i)
        { m with services := m.services.modify i (.resolve crates resolution) } (.running i) []
  | succeed {i : Nat} : TaskStep m (.running i) m (.saving i) []
  | save {i : Nat} {stack : Stack crates Snapshot} {reads : Reads}
      {key : ManagedNpmSnapshotKey} {snapshot : Snapshot} :
      m.services[i]? = some stack →
      saveNpmSnapshotCache crates stack reads = some (key, snapshot) →
      TaskStep m (.saving i) m (.inserting { stack := i, reads, key, snapshot }) []
  | insert {save : Save Snapshot} :
      TaskStep m (.inserting save)
        { m with
          cache := m.cache.insert save.key save.snapshot
          saves := m.saves ++ [save] } .done []
  /-- A build is not stable, a run fails or has nothing to save, or their future is dropped. -/
  | leave {t : Task crates Snapshot} : TaskStep m t m .done []

/-- A build or a run begins; a run has a stack that was returned. -/
inductive CallStep (m : Memory crates Snapshot) :
    Memory crates Snapshot → List (Task crates Snapshot) → Prop
  | build (parse : Parse crates) : CallStep m m [.resolving parse]
  | run {i : Nat} {stack : Stack crates Snapshot} :
      m.services[i]? = some stack → stack.published = true → CallStep m m [.running i]

variable (crates) in
abbrev Process (Snapshot : Type) :=
  Pool (Memory crates Snapshot) (Task crates Snapshot)

def ProcessStep : Process crates Snapshot →
    Process crates Snapshot → Prop :=
  Pool.Step TaskStep CallStep

/-- Before the first build. -/
def Process.Initial (s : Process crates Snapshot) : Prop :=
  s = ⟨{ cache := [], services := [], saves := [] }, []⟩

/-! ### The last insertion of a key -/

/-- The last of the entries with a property. -/
theorem exists_last {α : Type} {p : α → Prop} {l : List α} (h : ∃ x ∈ l, p x) :
    ∃ start x since, l = start ++ x :: since ∧ p x ∧ ∀ y ∈ since, ¬ p y := by
  induction l with
  | nil => simp at h
  | cons first l ih =>
      by_cases hrest : ∃ x ∈ l, p x
      · obtain ⟨start, x, since, rfl, hx, hsince⟩ := ih hrest
        exact ⟨first :: start, x, since, rfl, hx, hsince⟩
      · obtain ⟨x, hmem, hx⟩ := h
        rcases List.mem_cons.mp hmem with rfl | hmem
        · exact ⟨[], x, l, rfl, hx, fun y hy hpy => hrest ⟨y, hy, hpy⟩⟩
        · exact absurd ⟨x, hmem, hx⟩ hrest

/-- What the cache has for a key after some saves is what the last of them for it saved. -/
theorem last_of_get {saves : List (Save Snapshot)} {key : ManagedNpmSnapshotKey}
    {snapshot : Snapshot} (h : (SnapshotCache.after (saves.map Save.op)).get key = some snapshot) :
    ∃ start save since, saves = start ++ save :: since ∧ save.key = key ∧
      save.snapshot = snapshot ∧ ∀ later ∈ since, later.key ≠ key := by
  have inserts : ∀ save : Save Snapshot, save.op.Inserts key ↔ save.key = key := fun save => by
    simp [Save.op, Op.Inserts]
  have hsome : ∃ save ∈ saves, save.key = key := by
    by_contra hnone
    have habsent : (SnapshotCache.after (saves.map Save.op)).get key = none := by
      refine SnapshotCache.get_eq_none.mpr
        (SnapshotCache.notMem_keys_run ?_ (by simp [SnapshotCache.keys]))
      intro op hop hins
      obtain ⟨save, hsave, rfl⟩ := List.mem_map.mp hop
      exact hnone ⟨save, hsave, (inserts save).mp hins⟩
    rw [habsent] at h
    cases h
  obtain ⟨start, save, since, rfl, rfl, hsince⟩ := exists_last hsome
  refine ⟨start, save, since, rfl, rfl, ?_, hsince⟩
  have hothers : ∀ op ∈ since.map Save.op, ¬ op.Inserts save.key := by
    intro op hop hins
    obtain ⟨later, hlater, rfl⟩ := List.mem_map.mp hop
    exact hsince later hlater ((inserts later).mp hins)
  have hsplit : (start ++ save :: since).map Save.op =
      start.map Save.op ++ .insert save.key save.snapshot :: since.map Save.op := by
    simp [Save.op]
  obtain ⟨hevicted, hkept⟩ := @SnapshotCache.get_since _ _ _ _ save.snapshot
    (start.map Save.op) _ hothers
  rw [hsplit] at h
  by_cases hev : SnapshotCache.EvictedIn
      (SnapshotCache.after (start.map Save.op ++ [.insert save.key save.snapshot]))
      (since.map Save.op) save.key
  · rw [hevicted hev] at h
    cases h
  · rw [hkept hev] at h
    exact Option.some.inj h

/-! ### The invariant -/

/-- A key is a manifest's without lockfile, own `node_modules` or credentials. -/
theorem managedSnapshotKey_some {manifest : ResolverInputManifest} {key : ManagedNpmSnapshotKey} :
    managedSnapshotKey manifest = some key ↔
      manifest.identity.byonm = false ∧ manifest.identity.lockfilePresent = false ∧
        manifest.probe.npmrcHasAuth = false ∧ key.identity = manifest.identity := by
  unfold managedSnapshotKey
  split
  · next h =>
    simp only [Bool.or_eq_true] at h
    constructor
    · intro hsome
      cases hsome
    · rintro ⟨hbyonm, hlock, hauth, -⟩
      simp [hbyonm, hlock, hauth] at h
  · next h =>
    simp only [Bool.or_eq_true, not_or, Bool.not_eq_true] at h
    constructor
    · intro hsome
      obtain rfl := Option.some.inj hsome
      exact ⟨h.1.1, h.1.2, h.2, rfl⟩
    · rintro ⟨-, -, -, hkey⟩
      rw [← hkey]

/-- A save is that of a run on a returned stack, whose manifest was current, and has a resolution
of that stack. -/
def Save.Sound (services : List (Stack crates Snapshot)) (save : Save Snapshot) : Prop :=
  ∃ saver, services[save.stack]? = some saver ∧ saver.published = true ∧
    isCurrent crates.hashing crates.urls saver.parse.manifest save.reads = true ∧
    managedSnapshotKey saver.parse.manifest = some save.key ∧
    save.snapshot ∈ saver.resolutions

/-- What is known of a stack. -/
structure Stack.Known (saves : List (Save Snapshot)) (stack : Stack crates Snapshot) : Prop where
  before : stack.before <+: saves
  served : ∀ snapshot, stack.served = some snapshot →
    ∃ key, managedSnapshotKey stack.parse.manifest = some key ∧
      (SnapshotCache.after (stack.before.map Save.op)).get key = some snapshot
  current : ∀ resolution, stack.npmResolver = .ok (.managed resolution) →
    resolution ∈ stack.resolutions

/-- How a stack may change. -/
structure Stack.Evolves (stack stack' : Stack crates Snapshot) : Prop where
  parse : stack'.parse = stack.parse
  published : stack.published = true → stack'.published = true
  resolutions : stack.resolutions ⊆ stack'.resolutions

/-- Stacks are added and change, and none is lost. -/
def Grows (services services' : List (Stack crates Snapshot)) : Prop :=
  ∀ (i : Nat) (stack : Stack crates Snapshot), services[i]? = some stack →
    ∃ stack', services'[i]? = some stack' ∧ stack.Evolves stack'

theorem Grows.refl (services : List (Stack crates Snapshot)) : Grows services services :=
  fun _ stack h => ⟨stack, h, rfl, id, fun _ => id⟩

theorem Grows.append (services more : List (Stack crates Snapshot)) :
    Grows services (services ++ more) := fun i stack h =>
  ⟨stack, by rw [List.getElem?_append_left (List.getElem?_eq_some_iff.mp h).choose, h], rfl, id,
    fun _ => id⟩

theorem Grows.modify (services : List (Stack crates Snapshot)) (i : Nat)
    {f : Stack crates Snapshot → Stack crates Snapshot}
    (hf : ∀ stack : Stack crates Snapshot, stack.Evolves (f stack)) :
    Grows services (services.modify i f) := by
  intro j stack h
  rw [List.getElem?_modify, h]
  by_cases hij : i = j
  · exact ⟨f stack, by simp [hij], hf stack⟩
  · exact ⟨stack, by simp [hij], rfl, id, fun _ => id⟩

theorem Stack.publish_evolves (stack : Stack crates Snapshot) :
    stack.Evolves (stack.publish crates) where
  parse := rfl
  published _ := rfl
  resolutions _ := id

theorem Stack.resolve_evolves (resolution : Snapshot) (stack : Stack crates Snapshot) :
    stack.Evolves (stack.resolve crates resolution) := by
  unfold Stack.resolve
  split
  · exact ⟨rfl, id, List.subset_append_left _ _⟩
  · exact ⟨rfl, id, fun _ => id⟩

theorem Stack.Known.grows {saves saves' : List (Save Snapshot)} {stack : Stack crates Snapshot}
    (h : stack.Known saves) (grows : saves <+: saves') : stack.Known saves' :=
  { h with before := h.before.trans grows }

theorem Stack.Known.publish {saves : List (Save Snapshot)} {stack : Stack crates Snapshot}
    (h : stack.Known saves) : (stack.publish crates).Known saves :=
  ⟨h.before, h.served, h.current⟩

theorem Stack.Known.resolve {saves : List (Save Snapshot)} {stack : Stack crates Snapshot}
    (h : stack.Known saves) (resolution : Snapshot) :
    (stack.resolve crates resolution).Known saves := by
  unfold Stack.resolve
  split
  · refine ⟨h.before, h.served, fun resolution' heq => ?_⟩
    obtain rfl : resolution = resolution' := by simpa using heq
    simp
  · exact h

/-- What every stack keeps when it is changed, holds of all of them when one is. -/
theorem forall_mem_modify {P : Stack crates Snapshot → Prop}
    {services : List (Stack crates Snapshot)} {i : Nat}
    {f : Stack crates Snapshot → Stack crates Snapshot} (hf : ∀ stack, P stack → P (f stack))
    (h : ∀ stack ∈ services, P stack) : ∀ stack ∈ services.modify i f, P stack := by
  intro stack hmem
  obtain ⟨j, hj⟩ := List.mem_iff_getElem?.mp hmem
  rw [List.getElem?_modify] at hj
  obtain ⟨old, hold, rfl⟩ := Option.map_eq_some_iff.mp hj
  have hknown := h old (List.mem_of_getElem? hold)
  split
  · exact hf old hknown
  · exact hknown

theorem Save.Sound.grows {services services' : List (Stack crates Snapshot)}
    {save : Save Snapshot} (h : save.Sound services) (grows : Grows services services') :
    save.Sound services' := by
  obtain ⟨saver, hget, hpublished, hcurrent, hkey, hmem⟩ := h
  obtain ⟨saver', hget', hevolves⟩ := grows _ _ hget
  refine ⟨saver', hget', hevolves.published hpublished, ?_, ?_, hevolves.resolutions hmem⟩
  · rwa [hevolves.parse]
  · rwa [hevolves.parse]

/-- What is known of the memory. -/
structure Memory.Known (m : Memory crates Snapshot) : Prop where
  cache : m.cache = SnapshotCache.after (m.saves.map Save.op)
  saves : ∀ save ∈ m.saves, save.Sound m.services
  services : ∀ stack ∈ m.services, stack.Known m.saves

/-- What is known of a task: a run's stack was returned, and what it saves is sound. -/
def Task.Known (m : Memory crates Snapshot) : Task crates Snapshot → Prop
  | .running i | .saving i => ∃ stack, m.services[i]? = some stack ∧ stack.published = true
  | .inserting save => save.Sound m.services
  | _ => True

theorem Task.Known.grows {m m' : Memory crates Snapshot} {t : Task crates Snapshot}
    (h : t.Known m) (grows : Grows m.services m'.services) : t.Known m' := by
  have published : ∀ {i : Nat},
      (∃ stack, m.services[i]? = some stack ∧ stack.published = true) →
      ∃ stack, m'.services[i]? = some stack ∧ stack.published = true := by
    rintro i ⟨stack, hget, hpublished⟩
    obtain ⟨stack', hget', hevolves⟩ := grows i stack hget
    exact ⟨stack', hget', hevolves.published hpublished⟩
  cases t with
  | running i => exact published h
  | saving i => exact published h
  | inserting save => exact Save.Sound.grows h grows
  | resolving parse => trivial
  | assembled i => trivial
  | done => trivial

theorem TaskStep.grows {m m' : Memory crates Snapshot} {t t' : Task crates Snapshot}
    {spawned : List (Task crates Snapshot)} (step : TaskStep m t m' t' spawned) :
    Grows m.services m'.services := by
  cases step with
  | lookup npmResolver => exact Grows.append _ _
  | accept hget hcurrent => exact Grows.modify _ _ Stack.publish_evolves
  | resolve resolution => exact Grows.modify _ _ (Stack.resolve_evolves resolution)
  | _ => exact Grows.refl _

/-- What `save_npm_snapshot_cache` enters. -/
theorem saveNpmSnapshotCache_some {stack : Stack crates Snapshot} {reads : Reads}
    {key : ManagedNpmSnapshotKey} {snapshot : Snapshot}
    (h : saveNpmSnapshotCache crates stack reads = some (key, snapshot)) :
    isCurrent crates.hashing crates.urls stack.parse.manifest reads = true ∧
      managedSnapshotKey stack.parse.manifest = some key ∧
      stack.npmResolver = .ok (.managed snapshot) := by
  unfold saveNpmSnapshotCache at h
  split at h
  · next hcurrent =>
    split at h
    · next resolution hresolver =>
      obtain ⟨key', hkey, heq⟩ := Option.map_eq_some_iff.mp h
      obtain ⟨rfl, rfl⟩ := Prod.mk.injEq _ _ _ _ ▸ heq
      exact ⟨hcurrent, hkey, hresolver⟩
    · cases h
  · cases h

/-- A task knows what it does next. -/
theorem TaskStep.task {m m' : Memory crates Snapshot} {t t' : Task crates Snapshot}
    {spawned : List (Task crates Snapshot)} (step : TaskStep m t m' t' spawned)
    (inv : m.Known) (h : t.Known m) : t'.Known m' := by
  have grows := step.grows
  cases step with
  | resolve resolution => exact Task.Known.grows (t := .running _) h grows
  | succeed => exact h
  | @save i stack reads key snapshot hget hsave =>
      obtain ⟨hcurrent, hkey, hresolver⟩ := saveNpmSnapshotCache_some hsave
      obtain ⟨stack', hget', hpublished⟩ := h
      obtain rfl : stack' = stack := by simpa [hget] using hget'.symm
      exact ⟨stack', hget, hpublished, hcurrent, hkey,
        (inv.services stack' (List.mem_of_getElem? hget)).current snapshot hresolver⟩
  | lookup npmResolver => trivial
  | accept hget hcurrent => trivial
  | insert => trivial
  | leave => trivial

theorem TaskStep.memory {m m' : Memory crates Snapshot} {t t' : Task crates Snapshot}
    {spawned : List (Task crates Snapshot)} (step : TaskStep m t m' t' spawned)
    (inv : m.Known) (h : t.Known m) : m'.Known := by
  have grows := step.grows
  have sound : ∀ save ∈ m.saves, save.Sound m'.services := fun save hmem =>
    (inv.saves save hmem).grows grows
  cases step with
  | @lookup parse npmResolver =>
      refine ⟨inv.cache, sound, fun stack hmem => ?_⟩
      rcases List.mem_append.mp hmem with hold | hnew
      · exact inv.services stack hold
      · obtain rfl := List.mem_singleton.mp hnew
        refine ⟨List.prefix_rfl, fun snapshot hserved => ?_, fun resolution hresolver => ?_⟩
        · simp only [Stack.new] at hserved
          split at hserved
          · obtain ⟨key, hkey, hget⟩ := Option.bind_eq_some_iff.mp hserved
            exact ⟨key, hkey, inv.cache ▸ hget⟩
          · cases hserved
        · simp only [Stack.new] at hresolver ⊢
          simp [hresolver]
  | accept hget hcurrent =>
      exact ⟨inv.cache, sound, forall_mem_modify (fun _ h => h.publish) inv.services⟩
  | resolve resolution =>
      exact ⟨inv.cache, sound, forall_mem_modify (fun _ h => h.resolve resolution) inv.services⟩
  | @insert save =>
      refine ⟨?_, fun other hmem => ?_, fun stack hmem =>
        (inv.services stack hmem).grows (List.prefix_append _ _)⟩
      · simp only [List.map_append, SnapshotCache.after, SnapshotCache.run_append]
        rw [inv.cache]
        rfl
      · rcases List.mem_append.mp hmem with hold | hnew
        · exact inv.saves other hold
        · obtain rfl := List.mem_singleton.mp hnew
          exact h
  | succeed => exact inv
  | save hget hsave => exact inv
  | leave => exact inv

theorem CallStep.known {m m' : Memory crates Snapshot} {spawned : List (Task crates Snapshot)}
    (step : CallStep m m' spawned) : m' = m ∧ ∀ t ∈ spawned, t.Known m := by
  cases step with
  | build parse => exact ⟨rfl, by simp [Task.Known]⟩
  | @run i stack hget hpublished =>
      exact ⟨rfl, by simpa [Task.Known] using ⟨stack, hget, hpublished⟩⟩

/-- What is known of the process. -/
def Process.Known (s : Process crates Snapshot) : Prop :=
  s.memory.Known ∧ ∀ t ∈ s.threads, t.Known s.memory

theorem ProcessStep.known {s s' : Process crates Snapshot} (inv : s.Known)
    (step : ProcessStep s s') : s'.Known := by
  refine ⟨?_, Pool.Step.threads (K := fun s => s.memory.Known) (P := Task.Known)
    ?_ ?_ ?_ step inv.1 inv.2⟩
  · cases step with
    | thread before after hmove => exact hmove.memory inv.1 (inv.2 _ (by simp))
    | environment threads hcall =>
        rw [hcall.known.1]
        exact inv.1
  · intro m t m' t' spawned before after hmemory hmove ht
    exact ⟨hmove.task hmemory ht, by cases hmove <;> simp⟩
  · intro m t m' t' spawned before after u _ _ hmove _ hu
    exact Task.Known.grows hu hmove.grows
  · intro m m' spawned threads _ hcall
    obtain ⟨rfl, hspawned⟩ := hcall.known
    exact ⟨fun u _ hu => hu, hspawned⟩

theorem Process.Initial.known {s : Process crates Snapshot} (h : s.Initial) : s.Known := by
  rw [Process.Initial] at h
  subst h
  exact ⟨⟨rfl, by simp, by simp⟩, by simp⟩

/-! ### What one identity says of two projects -/

/-- A file of a project: its path and what is serialized of it. -/
abbrev Document := PathBuf × Except String Json

/-- The config files, the external import maps and the package files of a project, as a manifest
lists them. -/
def denoJsons (dir : WorkspaceDirectory) : List Document :=
  dir.workspace.resolverDenoJsons.filterMap fun config =>
    config.path.map fun path => (path, config.json)

def importMaps (inputs : Inputs) (dir : WorkspaceDirectory) : List Document :=
  dir.workspace.resolverDenoJsons.filterMap fun config =>
    match config.importMapPath, config.importMapValue inputs with
    | .ok (some path), .ok (some value) => some (path, .ok value)
    | _, _ => none

def packageFiles (dir : WorkspaceDirectory) : List Document :=
  (dir.workspace.packageJsons ++ dir.workspace.linkPkgJsons).map fun package =>
    (package.path, package.json)

/-- The fingerprints are those of the documents. -/
structure Fingerprinted (hashing : Hashing) (inputs : Inputs) (documents : List Document)
    (fingerprints : List SemanticFingerprint) : Prop where
  listed : ∀ document ∈ documents, ∃ fingerprint ∈ fingerprints,
    semanticFingerprint hashing inputs document.1 document.2 = .ok fingerprint
  made : ∀ fingerprint ∈ fingerprints, ∃ document ∈ documents,
    semanticFingerprint hashing inputs document.1 document.2 = .ok fingerprint

variable {hashing : Hashing} {inputs inputs' : Inputs}

theorem Fingerprinted.nil : Fingerprinted hashing inputs [] [] := ⟨by simp, by simp⟩

theorem Fingerprinted.cons {document : Document} {fingerprint : SemanticFingerprint}
    {documents : List Document} {fingerprints : List SemanticFingerprint}
    (first : semanticFingerprint hashing inputs document.1 document.2 = .ok fingerprint)
    (rest : Fingerprinted hashing inputs documents fingerprints) :
    Fingerprinted hashing inputs (document :: documents) (fingerprint :: fingerprints) where
  listed other hmem := by
    rcases List.mem_cons.mp hmem with rfl | hmem
    · exact ⟨fingerprint, List.mem_cons_self, first⟩
    · obtain ⟨found, hfound, hof⟩ := rest.listed other hmem
      exact ⟨found, List.mem_cons_of_mem _ hfound, hof⟩
  made other hmem := by
    rcases List.mem_cons.mp hmem with rfl | hmem
    · exact ⟨document, List.mem_cons_self, first⟩
    · obtain ⟨found, hfound, hof⟩ := rest.made other hmem
      exact ⟨found, List.mem_cons_of_mem _ hfound, hof⟩

theorem packageFingerprints_ok {packages : List PackageJson}
    {fingerprints : List SemanticFingerprint}
    (h : packageFingerprints hashing inputs packages = .ok fingerprints) :
    Fingerprinted hashing inputs (packages.map fun package => (package.path, package.json))
      fingerprints := by
  induction packages generalizing fingerprints with
  | nil =>
      obtain rfl : [] = fingerprints := by simpa [packageFingerprints] using h
      exact .nil
  | cons package packages ih =>
      rw [packageFingerprints] at h
      obtain ⟨fingerprint, hfirst, h⟩ := except_bind_ok.mp h
      obtain ⟨rest, hrest, h⟩ := except_bind_ok.mp h
      obtain rfl : fingerprint :: rest = fingerprints := Except.ok.inj h
      exact .cons hfirst (ih hrest)

theorem configFingerprints_ok {files : List ConfigFile}
    {fingerprints : List SemanticFingerprint}
    (h : configFingerprints hashing inputs files = .ok fingerprints) :
    Fingerprinted hashing inputs
      (files.filterMap fun config => config.path.map fun path => (path, config.json))
      fingerprints := by
  induction files generalizing fingerprints with
  | nil =>
      obtain rfl : [] = fingerprints := by simpa [configFingerprints] using h
      exact .nil
  | cons config files ih =>
      rw [configFingerprints] at h
      rw [List.filterMap_cons]
      cases hpath : config.path with
      | none =>
          rw [hpath] at h
          exact ih h
      | some path =>
          rw [hpath] at h
          obtain ⟨fingerprint, hfirst, h⟩ := except_bind_ok.mp h
          obtain ⟨rest, hrest, h⟩ := except_bind_ok.mp h
          obtain rfl : fingerprint :: rest = fingerprints := Except.ok.inj h
          exact .cons hfirst (ih hrest)

theorem externalConfigFingerprints_ok {files : List ConfigFile} {paths : List PathBuf}
    {fingerprints : List SemanticFingerprint}
    (h : externalConfigFingerprints hashing inputs files = .ok (paths, fingerprints)) :
    Fingerprinted hashing inputs
      (files.filterMap fun config =>
        match config.importMapPath, config.importMapValue inputs with
        | .ok (some path), .ok (some value) => some (path, .ok value)
        | _, _ => none)
      fingerprints := by
  induction files generalizing paths fingerprints with
  | nil =>
      obtain ⟨-, rfl⟩ : [] = paths ∧ [] = fingerprints := by
        simpa [externalConfigFingerprints] using h
      exact .nil
  | cons config files ih =>
      rw [externalConfigFingerprints] at h
      rw [List.filterMap_cons]
      obtain ⟨found, hpath, h⟩ := except_bind_ok.mp h
      rw [hpath]
      cases found with
      | none => exact ih h
      | some path =>
          obtain ⟨value, hvalue, h⟩ := except_bind_ok.mp h
          rw [hvalue]
          cases value with
          | none =>
              obtain ⟨rest, hrest, h⟩ := except_bind_ok.mp h
              obtain ⟨-, rfl⟩ := Prod.mk.injEq _ _ _ _ ▸ Except.ok.inj h
              exact @ih rest.1 _ hrest
          | some value =>
              obtain ⟨fingerprint, hfirst, h⟩ := except_bind_ok.mp h
              obtain ⟨rest, hrest, h⟩ := except_bind_ok.mp h
              obtain ⟨-, rfl⟩ := Prod.mk.injEq _ _ _ _ ▸ Except.ok.inj h
              exact .cons hfirst (@ih rest.1 _ hrest)

/-- The identity has the fingerprints of the files the build parsed. -/
theorem Parse.fingerprints (parse : Parse crates) :
    (∃ fingerprints, Fingerprinted crates.hashing parse.reads.semantic (denoJsons parse.dir)
        fingerprints ∧
      parse.manifest.identity.configs = normalizeSemanticFingerprints fingerprints) ∧
    (∃ fingerprints, Fingerprinted crates.hashing parse.reads.semantic
        (importMaps parse.reads.semantic parse.dir) fingerprints ∧
      parse.manifest.identity.externalConfigs = normalizeSemanticFingerprints fingerprints) ∧
    ∃ fingerprints, Fingerprinted crates.hashing parse.reads.semantic (packageFiles parse.dir)
        fingerprints ∧
      parse.manifest.identity.packages = normalizeSemanticFingerprints fingerprints := by
  have h := parse.built
  rw [manifestFromWorkspace] at h
  obtain ⟨semantics, hsemantics, h⟩ := except_bind_ok.mp h
  have hidentity := congrArg ResolverInputManifest.identity (Except.ok.inj h)
  rw [workspaceSemantics] at hsemantics
  obtain ⟨fingerprints, hconfigs, hsemantics⟩ := except_bind_ok.mp hsemantics
  obtain ⟨external, hexternal, hsemantics⟩ := except_bind_ok.mp hsemantics
  obtain ⟨packages, hpackages, hsemantics⟩ := except_bind_ok.mp hsemantics
  obtain ⟨lockfilePath, -, hsemantics⟩ := except_bind_ok.mp hsemantics
  obtain rfl := Except.ok.inj hsemantics
  rw [← hidentity]
  exact ⟨⟨fingerprints, configFingerprints_ok hconfigs, rfl⟩,
    ⟨external.2, externalConfigFingerprints_ok (Prod.eta external ▸ hexternal), rfl⟩,
    ⟨packages, packageFingerprints_ok hpackages, rfl⟩⟩

/-- Of entries with one path the first one is kept. -/
theorem path_mem_destutter' {path : PathBuf} {fingerprints : List SemanticFingerprint} :
    ∀ {first : SemanticFingerprint}, path ∈ (first :: fingerprints).map (·.path) →
      path ∈ (fingerprints.destutter' (fun a b => a.path ≠ b.path) first).map (·.path) := by
  induction fingerprints with
  | nil => exact fun h => h
  | cons next fingerprints ih =>
      intro first h
      rw [List.destutter'_cons]
      split
      · rcases List.mem_cons.mp h with rfl | h
        · exact List.mem_cons_self
        · exact List.mem_cons_of_mem _ (ih h)
      · next heq =>
        refine ih ?_
        rw [List.map_cons, List.map_cons, ← not_not.mp heq] at h
        rcases List.mem_cons.mp h with rfl | h
        · exact List.mem_cons_self
        · exact h

theorem path_mem_normalize {fingerprints : List SemanticFingerprint}
    {fingerprint : SemanticFingerprint} (h : fingerprint ∈ fingerprints) :
    ∃ kept ∈ normalizeSemanticFingerprints fingerprints, kept.path = fingerprint.path := by
  have hsorted := (List.mem_insertionSort (l := fingerprints)
    fun a b : SemanticFingerprint => a.path ≤ b.path).mpr h
  have hpath : fingerprint.path ∈ (normalizeSemanticFingerprints fingerprints).map (·.path) := by
    rw [normalizeSemanticFingerprints]
    generalize fingerprints.insertionSort
      (fun a b : SemanticFingerprint => a.path ≤ b.path) = sorted at hsorted
    cases sorted with
    | nil => exact absurd hsorted List.not_mem_nil
    | cons first rest => exact path_mem_destutter' (List.mem_map_of_mem hsorted)
  simpa using hpath

theorem mem_of_mem_normalize {fingerprints : List SemanticFingerprint}
    {fingerprint : SemanticFingerprint}
    (h : fingerprint ∈ normalizeSemanticFingerprints fingerprints) : fingerprint ∈ fingerprints :=
  (List.mem_insertionSort _).mp ((List.destutter_sublist _ _).subset h)

/-- What the hash is taken of can be held by a map of the crate, and the hash tells the
documents of two projects apart. -/
structure Distinguished (hashing : Hashing) (floats : FloatText)
    (documents documents' : List Document) : Prop where
  stored : ∀ document ∈ documents, ∀ json, document.2 = .ok json → Stored true json
  stored' : ∀ document ∈ documents', ∀ json, document.2 = .ok json → Stored true json
  apart : ∀ document ∈ documents, ∀ document' ∈ documents', ∀ a b : Value true,
    document.2 = .ok a.json → document'.2 = .ok b.json →
    hashing.bytes (toVec floats a.canonical.json) = hashing.bytes (toVec floats b.canonical.json) →
    toVec floats a.canonical.json = toVec floats b.canonical.json

/-- Each document of one project has its counterpart in the other one: under its canonical path
both have a document, and the two are equal up to the order of members. -/
def SameMeaning (inputs : Inputs) (documents : List Document) (inputs' : Inputs)
    (documents' : List Document) : Prop :=
  ∀ document ∈ documents, ∃ a ∈ documents, ∃ b ∈ documents',
    canonicalPath inputs a.1 = canonicalPath inputs document.1 ∧
      canonicalPath inputs' b.1 = canonicalPath inputs document.1 ∧
      ∃ json json', a.2 = .ok json ∧ b.2 = .ok json' ∧ json.Reordered json'

theorem semanticFingerprint_ok {path : PathBuf} {value : Except String Json}
    {fingerprint : SemanticFingerprint} :
    semanticFingerprint hashing inputs path value = .ok fingerprint ↔
      fingerprint.path = canonicalPath inputs path ∧
        semanticHash hashing value = .ok fingerprint.hash := by
  unfold semanticFingerprint
  cases hhash : semanticHash hashing value with
  | error e => simp [Except.map]
  | ok hash =>
      rcases fingerprint with ⟨path', hash'⟩
      simp only [Except.map, Except.ok.injEq, SemanticFingerprint.mk.injEq]
      tauto

theorem ok_of_semanticHash {value : Except String Json} {hash : UInt64}
    (h : semanticHash hashing value = .ok hash) : ∃ json, value = .ok json := by
  cases value with
  | error e => cases h
  | ok json => exact ⟨json, rfl⟩

/-- Documents with the same fingerprints mean the same. -/
theorem sameMeaning {floats : FloatText} (written : hashing.toVec = toVec floats)
    {documents documents' : List Document} {fingerprints fingerprints' : List SemanticFingerprint}
    (h : Fingerprinted hashing inputs documents fingerprints)
    (h' : Fingerprinted hashing inputs' documents' fingerprints')
    (same : normalizeSemanticFingerprints fingerprints =
      normalizeSemanticFingerprints fingerprints')
    (distinguished : Distinguished hashing floats documents documents') :
    SameMeaning inputs documents inputs' documents' := by
  intro document hmem
  obtain ⟨fingerprint, hfingerprint, hof⟩ := h.listed document hmem
  -- the entry that is kept for its path is that of a document of each project
  obtain ⟨kept, hkept, hpath⟩ := path_mem_normalize hfingerprint
  obtain ⟨a, hamem, ha⟩ := h.made kept (mem_of_mem_normalize hkept)
  obtain ⟨b, hbmem, hb⟩ := h'.made kept (mem_of_mem_normalize (same ▸ hkept))
  obtain ⟨hapath, hahash⟩ := semanticFingerprint_ok.mp ha
  obtain ⟨hbpath, hbhash⟩ := semanticFingerprint_ok.mp hb
  have hdocument : kept.path = canonicalPath inputs document.1 :=
    hpath.trans (semanticFingerprint_ok.mp hof).1
  obtain ⟨json, hjson⟩ := ok_of_semanticHash hahash
  obtain ⟨json', hjson'⟩ := ok_of_semanticHash hbhash
  refine ⟨a, hamem, b, hbmem, hapath ▸ hdocument, hbpath ▸ hdocument, json, json', hjson, hjson',
    ?_⟩
  let value : Value true := ⟨json, distinguished.stored a hamem json hjson⟩
  let value' : Value true := ⟨json', distinguished.stored' b hbmem json' hjson'⟩
  rw [hjson] at hahash
  rw [hjson'] at hbhash
  exact (semanticHash_eq_iff _ written value value'
    (distinguished.apart a hamem b hbmem value value' hjson hjson')).mp (hahash.trans hbhash.symm)

/-! ### The result -/

/-- A build and the build whose run saved what it was served have projects that mean the same. -/
structure SameProject (stack saver : Stack crates Snapshot) : Prop where
  denoJsons : SameMeaning stack.parse.reads.semantic (denoJsons stack.parse.dir)
    saver.parse.reads.semantic (denoJsons saver.parse.dir)
  importMaps : SameMeaning stack.parse.reads.semantic
    (importMaps stack.parse.reads.semantic stack.parse.dir) saver.parse.reads.semantic
    (importMaps saver.parse.reads.semantic saver.parse.dir)
  packageFiles : SameMeaning stack.parse.reads.semantic (packageFiles stack.parse.dir)
    saver.parse.reads.semantic (packageFiles saver.parse.dir)

theorem sameProject_of_identity {floats : FloatText}
    (written : crates.hashing.toVec = toVec floats) {stack saver : Stack crates Snapshot}
    (same : stack.parse.manifest.identity = saver.parse.manifest.identity)
    (denoJsons : Distinguished crates.hashing floats (denoJsons stack.parse.dir)
      (denoJsons saver.parse.dir))
    (importMaps : Distinguished crates.hashing floats
      (importMaps stack.parse.reads.semantic stack.parse.dir)
      (importMaps saver.parse.reads.semantic saver.parse.dir))
    (packageFiles : Distinguished crates.hashing floats (packageFiles stack.parse.dir)
      (packageFiles saver.parse.dir)) : SameProject stack saver := by
  obtain ⟨⟨f, hf, hconfigs⟩, ⟨g, hg, hexternal⟩, k, hk, hpackages⟩ := stack.parse.fingerprints
  obtain ⟨⟨f', hf', hconfigs'⟩, ⟨g', hg', hexternal'⟩, k', hk', hpackages'⟩ :=
    saver.parse.fingerprints
  rw [same] at hconfigs hexternal hpackages
  exact ⟨sameMeaning written hf hf' (hconfigs.symm.trans hconfigs') denoJsons,
    sameMeaning written hg hg' (hexternal.symm.trans hexternal') importMaps,
    sameMeaning written hk hk' (hpackages.symm.trans hpackages') packageFiles⟩

/-- A project whose snapshots are not kept. -/
def Excluded (manifest : ResolverInputManifest) : Prop :=
  manifest.identity.byonm = true ∨ manifest.identity.lockfilePresent = true ∨
    manifest.probe.npmrcHasAuth = true

/-- Where a served snapshot comes from. -/
structure Origin (m : Memory crates Snapshot) (stack : Stack crates Snapshot)
    (snapshot : Snapshot) (save : Save Snapshot) (saver : Stack crates Snapshot) : Prop where
  /-- It was saved before the lookup, and is the last that was, for this identity. -/
  last : ∃ start since, stack.before = start ++ save :: since ∧
    ∀ later ∈ since, later.key ≠ save.key
  earlier : stack.before <+: m.saves
  /-- It was a resolution of the stack of a run, which was returned and current. -/
  saved : m.services[save.stack]? = some saver ∧ saver.published = true
  resolution : save.snapshot = snapshot ∧ snapshot ∈ saver.resolutions
  current : isCurrent crates.hashing crates.urls saver.parse.manifest save.reads = true
  /-- Its inputs had the same identity, and neither has lockfile, `node_modules` of its own or
  credentials. -/
  identity : stack.parse.manifest.identity = saver.parse.manifest.identity
  kept : ¬ Excluded stack.parse.manifest ∧ ¬ Excluded saver.parse.manifest

theorem not_excluded {manifest : ResolverInputManifest} {key : ManagedNpmSnapshotKey}
    (h : managedSnapshotKey manifest = some key) : ¬ Excluded manifest := by
  obtain ⟨hbyonm, hlock, hauth, -⟩ := managedSnapshotKey_some.mp h
  simp [Excluded, hbyonm, hlock, hauth]

theorem Memory.Known.origin {m : Memory crates Snapshot} (inv : m.Known)
    {stack : Stack crates Snapshot} (hstack : stack ∈ m.services) {snapshot : Snapshot}
    (hserved : stack.served = some snapshot) :
    ∃ save saver, Origin m stack snapshot save saver := by
  have hknown := inv.services stack hstack
  obtain ⟨key, hkey, hget⟩ := hknown.served snapshot hserved
  obtain ⟨start, save, since, hsplit, rfl, rfl, hsince⟩ := last_of_get hget
  have hmem : save ∈ m.saves := hknown.before.subset (by simp [hsplit])
  obtain ⟨saver, hsaver, hpublished, hcurrent, hsaverKey, hresolution⟩ := inv.saves save hmem
  have hidentity := (managedSnapshotKey_some.mp hkey).2.2.2
  exact ⟨save, saver,
    { last := ⟨start, since, hsplit, hsince⟩
      earlier := hknown.before
      saved := ⟨hsaver, hpublished⟩
      resolution := ⟨rfl, hresolution⟩
      current := hcurrent
      identity := hidentity.symm.trans (managedSnapshotKey_some.mp hsaverKey).2.2.2
      kept := ⟨not_excluded hkey, not_excluded hsaverKey⟩ }⟩

/-- In every process, whatever builds and runs interleave: a snapshot that a build is served has
an origin, a project that is excluded neither takes nor saves one, and if the hash tells the
files of the two projects apart, they mean the same. -/
theorem served_snapshot_provenance {s : Process crates Snapshot}
    (h : Transition.Reachable Process.Initial ProcessStep s) :
    (∀ stack ∈ s.memory.services, ∀ snapshot, stack.served = some snapshot →
      ∃ save saver, Origin s.memory stack snapshot save saver ∧
        ∀ floats, crates.hashing.toVec = toVec floats →
          Distinguished crates.hashing floats (denoJsons stack.parse.dir)
            (denoJsons saver.parse.dir) →
          Distinguished crates.hashing floats
            (importMaps stack.parse.reads.semantic stack.parse.dir)
            (importMaps saver.parse.reads.semantic saver.parse.dir) →
          Distinguished crates.hashing floats (packageFiles stack.parse.dir)
            (packageFiles saver.parse.dir) →
          SameProject stack saver) ∧
    (∀ (i : Nat) (stack : Stack crates Snapshot), s.memory.services[i]? = some stack →
      Excluded stack.parse.manifest →
        stack.served = none ∧ ∀ save ∈ s.memory.saves, save.stack ≠ i) := by
  have inv : s.Known := Transition.Reachable.invariant (P := Process.Known)
    (fun _ => Process.Initial.known) (fun _ _ => ProcessStep.known) h
  constructor
  · intro stack hstack snapshot hserved
    obtain ⟨save, saver, horigin⟩ := inv.1.origin hstack hserved
    exact ⟨save, saver, horigin, fun floats written hdeno himport hpackage =>
      sameProject_of_identity written horigin.identity hdeno himport hpackage⟩
  · intro i stack hget hexcluded
    have hstack := List.mem_of_getElem? hget
    constructor
    · by_contra hserved
      obtain ⟨snapshot, hsome⟩ := Option.ne_none_iff_exists'.mp hserved
      obtain ⟨save, saver, horigin⟩ := inv.1.origin hstack hsome
      exact horigin.kept.1 hexcluded
    · rintro save hsave rfl
      obtain ⟨saver, hsaver, -, -, hkey, -⟩ := inv.1.saves save hsave
      obtain rfl : stack = saver := by simpa [hget] using hsaver
      exact not_excluded hkey hexcluded

end System

/-! ### Two builds of one directory -/

abbrev sampleCrates : Crates where
  Url := PlainUrl
  Config := Option (List Char)
  hashing := firstByteHashing
  urls := plainUrls
  configs := tokens

/-- A directory with an npmrc file that is a comment. -/
theorem sample_built : ∃ (parse : Parse sampleCrates) (key : ManagedNpmSnapshotKey),
    managedSnapshotKey parse.manifest = some key ∧
      isCurrent sampleCrates.hashing sampleCrates.urls parse.manifest parse.reads = true := by
  let world := sampleWorld [35]
  let reads : Reads := ⟨world.inputs, world, world, world, world.inputs⟩
  let inputs : WorkspaceResolverInputs := ⟨some sampleNpmrc, false, none, none⟩
  refine ⟨⟨sampleRoot, [], sampleWorkspace, publicNpmrc, inputs, reads, _, rfl⟩, _, rfl, ?_⟩
  exact @isCurrent_unchanged _ _ _ world _ _ _ _ _ _ rfl _ rfl rfl rfl

section Sample

variable (parse : Parse sampleCrates) (key : ManagedNpmSnapshotKey)

/-- The first build of it, whose resolution was `0` and became what is given. -/
def sampleSaver (published : Bool) (resolutions : List Nat) : Stack sampleCrates Nat where
  parse
  npmResolver := .ok (.managed (resolutions.getLastD 0))
  published
  served := none
  before := []
  resolutions

def sampleSave : Save Nat where
  stack := 0
  reads := parse.reads
  key
  snapshot := 5

/-- The second one. -/
def sampleServed : Stack sampleCrates Nat where
  parse
  npmResolver := .ok (.managed 5)
  published := false
  served := some 5
  before := [sampleSave parse key]
  resolutions := [5]

/-- The process with these builds and saves. -/
def sampleProcess (services : List (Stack sampleCrates Nat)) (saves : List (Save Nat))
    (threads : List (Task sampleCrates Nat)) : Process sampleCrates Nat :=
  ⟨{ cache := saves.map fun save => (save.key, save.snapshot), services, saves }, threads⟩

variable {parse key}

theorem sample_reachable (hkey : managedSnapshotKey parse.manifest = some key)
    (hcurrent : isCurrent sampleCrates.hashing sampleCrates.urls parse.manifest parse.reads =
      true) :
    Transition.Reachable Process.Initial ProcessStep
      (sampleProcess [sampleSaver parse true [0, 5], sampleServed parse key]
        [sampleSave parse key] [.done, .done, .assembled 1]) := by
  have hnew : Stack.new sampleCrates parse [] [] (.ok (.managed 0)) =
      sampleSaver parse false [0] := by
    simp [Stack.new, sampleSaver, resolveNpmResolutionSnapshot, hkey, SnapshotCache.get]
  have hserved : Stack.new sampleCrates parse [(key, 5)] [sampleSave parse key]
      (.ok (.managed 5)) = sampleServed parse key := by
    simp [Stack.new, sampleServed, resolveNpmResolutionSnapshot, hkey, SnapshotCache.get]
  have hsaved : saveNpmSnapshotCache sampleCrates (sampleSaver parse true [0, 5]) parse.reads =
      some (key, 5) := by
    simp [saveNpmSnapshotCache, sampleSaver, hcurrent, hkey]
  have start : Transition.Reachable Process.Initial ProcessStep (sampleProcess [] [] []) :=
    .start rfl
  have building : Transition.Reachable Process.Initial ProcessStep
      (sampleProcess [] [] [.resolving parse]) := start.snoc (.environment [] (.build parse))
  have assembled : Transition.Reachable Process.Initial ProcessStep
      (sampleProcess [sampleSaver parse false [0]] [] [.assembled 0]) :=
    building.snoc (hnew ▸ .thread [] [] (.lookup (.ok (.managed 0))))
  have accepted : Transition.Reachable Process.Initial ProcessStep
      (sampleProcess [sampleSaver parse true [0]] [] [.done]) :=
    assembled.snoc (.thread [] [] (.accept rfl hcurrent))
  have running : Transition.Reachable Process.Initial ProcessStep
      (sampleProcess [sampleSaver parse true [0]] [] [.done, .running 0]) :=
    accepted.snoc (.environment [Task.done] (CallStep.run (i := 0) rfl rfl))
  have resolved : Transition.Reachable Process.Initial ProcessStep
      (sampleProcess [sampleSaver parse true [0, 5]] [] [.done, .running 0]) :=
    running.snoc (.thread [Task.done] [] (TaskStep.resolve 5))
  have succeeded : Transition.Reachable Process.Initial ProcessStep
      (sampleProcess [sampleSaver parse true [0, 5]] [] [.done, .saving 0]) :=
    resolved.snoc (.thread [Task.done] [] TaskStep.succeed)
  have inserting : Transition.Reachable Process.Initial ProcessStep
      (sampleProcess [sampleSaver parse true [0, 5]] []
        [.done, .inserting (sampleSave parse key)]) :=
    succeeded.snoc (.thread [Task.done] [] (TaskStep.save rfl hsaved))
  have saved : Transition.Reachable Process.Initial ProcessStep
      (sampleProcess [sampleSaver parse true [0, 5]] [sampleSave parse key] [.done, .done]) :=
    inserting.snoc (.thread [Task.done] [] TaskStep.insert)
  have again : Transition.Reachable Process.Initial ProcessStep
      (sampleProcess [sampleSaver parse true [0, 5]] [sampleSave parse key]
        [.done, .done, .resolving parse]) :=
    saved.snoc (.environment [Task.done, Task.done] (CallStep.build parse))
  exact again.snoc (hserved ▸
    .thread [Task.done, Task.done] [] (TaskStep.lookup (.ok (.managed 5))))

end Sample

/-- The first build is served nothing; its run resolves 5 and saves it, and the second build is
served that. -/
theorem served_snapshot_provenance_sample :
    ∃ (s : Process sampleCrates Nat) (stack : Stack sampleCrates Nat),
      stack ∈ s.memory.services ∧ stack.served = some 5 ∧
      ∃ save saver, Origin s.memory stack 5 save saver := by
  obtain ⟨parse, key, hkey, hcurrent⟩ := sample_built
  have hmem : sampleServed parse key ∈
      [sampleSaver parse true [0, 5], sampleServed parse key] := by simp
  obtain ⟨save, saver, horigin, -⟩ :=
    (served_snapshot_provenance (sample_reachable hkey hcurrent)).1 _ hmem 5 rfl
  exact ⟨_, _, hmem, rfl, save, saver, horigin⟩

end Libdeno.NpmCache.Provenance
