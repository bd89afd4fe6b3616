import Libdeno.Library.History
import Libdeno.NpmCache.Manifest

/-!
# Libdeno.NpmCache.Stability

`SharedServices::new_with_timing` builds a resolver stack while its inputs may change. An
attempt parses the inputs, probes them, parses them again, assembles the stack and probes
once more. Where no input returns to an earlier content within an attempt, the two probes
enclose a time in which no probed input changed; the second parse and the assembly lie in
that time, so an accepted stack has the identity of the contents of one moment, although
the first parse may have read other bytes with the same meaning.
-/

namespace Libdeno.NpmCache

open Lines
open Snapshot (Str lit)
open PathBuf

/-! ### One attempt -/

/-- The resolver as a function of the inputs each of its parts reads. -/
structure ResolverApi (Url Config Stack : Type) where
  /-- `new_workspace_factory` and `workspace_directory`. -/
  workspaceDirectory : PathBuf → List PathBuf → Inputs → Except String WorkspaceDirectory
  npmrcWithPath : WorkspaceDirectory → Inputs →
    Except String (ResolvedNpmRc Url Config × Option PathBuf)
  /-- `use_byonm` and `root_node_modules_path`. -/
  byonmAndRoot : WorkspaceDirectory → Inputs → Except String (Bool × Option PathBuf)
  /-- The rest of `build_once`: caches, lockfile, npm resolution, graph resolver. -/
  assemble : WorkspaceDirectory → ResolvedNpmRc Url Config → Bool × Option PathBuf → Inputs →
    Except String Stack

/-- `RESOLVER_INPUTS_CHANGED`. -/
def resolverInputsChanged : String := "resolver inputs changed during construction"

/-- `MAX_STABLE_BUILD_ATTEMPTS`. -/
def maxStableBuildAttempts : Nat := 2

/-- `managed_root_node_modules_path`. -/
def managedRootNodeModulesPath (workspace : Workspace) (mode : Bool × Option PathBuf)
    (initialCwd : PathBuf) : Option PathBuf :=
  if mode.1 || mode.2.isNone then none
  else
    let root := (workspace.rootDenoJsonDir.or (workspace.rootPkgJsonPath.bind parent)).getD
      initialCwd
    some (join root [lit "node_modules"])

/-- The inputs as the parts of a parse see them: each part reads at its own time. -/
structure ParseReads where
  discovery : Inputs
  npmrc : Inputs
  mode : Inputs
  manifest : Reads

/-- The inputs as the parts of an attempt see them. -/
structure AttemptReads where
  memoized : ParseReads
  authoritative : ParseReads
  compare : Inputs
  assembly : Inputs
  check : Reads

/-- What is parsed, and the manifest of it. -/
structure Parsed (Url Config : Type) where
  dir : WorkspaceDirectory
  npmrc : ResolvedNpmRc Url Config
  mode : Bool × Option PathBuf
  managedRoot : Option PathBuf
  manifest : ResolverInputManifest

/-- `SharedServices`. -/
structure SharedServices (Stack : Type) where
  stack : Stack
  inputManifest : ResolverInputManifest

section Attempt

variable {Url Config Stack : Type} [DecidableEq Url] [DecidableEq Config] (hashing : Hashing)
  (urls : UrlApi Url) (configs : ConfigApi Config) (api : ResolverApi Url Config Stack)
  (initialCwd : PathBuf) (configStartPaths : List PathBuf)

/-- Discovery, npmrc and mode, and the manifest of what they say. -/
def parseInputs (reads : ParseReads) : Except String (Parsed Url Config) := do
  let dir ← api.workspaceDirectory initialCwd configStartPaths reads.discovery
  let (npmrc, npmrcPath) ← api.npmrcWithPath dir reads.npmrc
  let mode ← api.byonmAndRoot dir reads.mode
  let managedRoot := managedRootNodeModulesPath dir.workspace mode initialCwd
  let manifest ← manifestFromWorkspace hashing urls configs initialCwd configStartPaths dir npmrc
    { npmrcPath := npmrcPath, byonm := mode.1, nodeModulesPath := mode.2
      managedRootPath := managedRoot } reads.manifest
  return { dir, npmrc, mode, managedRoot, manifest }

/-- `npm_sensitive_state_equal`. -/
def npmSensitiveStateEqual (left right : ResolvedNpmRc Url Config) : Bool :=
  npmAuthPresence urls configs left = npmAuthPresence urls configs right &&
    left.defaultConfig = right.defaultConfig &&
    decide (left.scopes.entries.Perm right.scopes.entries) &&
    decide (left.registryConfigs.entries.Perm right.registryConfigs.entries) &&
    left.replaceRegistryHost = right.replaceRegistryHost

/-- `root_node_modules_path_equal`. -/
def rootNodeModulesPathEqual (inputs : Inputs) (left right : Option PathBuf) : Bool :=
  left.map (canonicalPath inputs) = right.map (canonicalPath inputs)

/-- The comparison of `resolver_input_manifest`. -/
def parsesAgree (inputs : Inputs) (parsed authoritative : Parsed Url Config) : Bool :=
  parsed.manifest.identity = authoritative.manifest.identity &&
    npmSensitiveStateEqual urls configs parsed.npmrc authoritative.npmrc &&
    rootNodeModulesPathEqual inputs parsed.mode.2 authoritative.mode.2 &&
    parsed.managedRoot = authoritative.managedRoot

/-- `resolver_input_manifest`, with the memoized parse in front of it. -/
def resolverInputManifest (reads : AttemptReads) : Except String (Parsed Url Config) := do
  let parsed ← parseInputs hashing urls configs api initialCwd configStartPaths reads.memoized
  let authoritative ← parseInputs hashing urls configs api initialCwd configStartPaths
    reads.authoritative
  if parsesAgree urls configs reads.compare parsed authoritative then return parsed
  else throw resolverInputsChanged

/-- `build_once`. -/
def buildOnce (reads : AttemptReads) : Except String (SharedServices Stack) := do
  let parsed ← resolverInputManifest hashing urls configs api initialCwd configStartPaths reads
  let stack ← api.assemble parsed.dir parsed.npmrc parsed.mode reads.assembly
  return { stack, inputManifest := parsed.manifest }

/-- `stable_build_decision`. -/
def stableBuildDecision (attempt : Nat) (stable : Bool) : Except String Bool :=
  if stable then .ok true
  else if attempt + 1 < maxStableBuildAttempts then .ok false
  else .error resolverInputsChanged

/-- The loop of `new_with_timing`, with the number of builds it made. -/
def newFrom (reads : Nat → AttemptReads) : Nat → Nat → Except String (SharedServices Stack) × Nat
  | 0, attempt => (.error resolverInputsChanged, attempt)
  | more + 1, attempt =>
      match buildOnce hashing urls configs api initialCwd configStartPaths (reads attempt) with
      | .error e =>
          if e = resolverInputsChanged ∧ attempt + 1 < maxStableBuildAttempts then
            newFrom reads more (attempt + 1)
          else (.error e, attempt + 1)
      | .ok candidate =>
          match stableBuildDecision attempt
              (isCurrent hashing urls candidate.inputManifest (reads attempt).check) with
          | .error e => (.error e, attempt + 1)
          | .ok true => (.ok candidate, attempt + 1)
          | .ok false => newFrom reads more (attempt + 1)

/-- `new_with_timing`. -/
def newWithTiming (reads : Nat → AttemptReads) : Except String (SharedServices Stack) × Nat :=
  newFrom hashing urls configs api initialCwd configStartPaths reads maxStableBuildAttempts 0

end Attempt

/-! ### Schedules -/

open History

/-- The times of an attempt: its start, the end of the first parse, of the probe, of the
second parse and of the assembly, and its end. -/
structure Times where
  start : Nat
  parsed : Nat
  probed : Nat
  validated : Nat
  assembled : Nat
  stop : Nat

/-- The history of the inputs alone. -/
def inputsOf (history : Nat → World) : Nat → Inputs := fun t => (history t).inputs

/-- Each part of an attempt sees the system as it is at times of that part. -/
structure Scheduled (history : Nat → World) (times : Times) (reads : AttemptReads) : Prop where
  order : times.start ≤ times.parsed ∧ times.parsed ≤ times.probed ∧
    times.probed ≤ times.validated ∧ times.validated ≤ times.assembled ∧
    times.assembled ≤ times.stop
  discovery : Seen (inputsOf history) times.start times.parsed reads.memoized.discovery
  npmrc : Seen (inputsOf history) times.start times.parsed reads.memoized.npmrc
  mode : Seen (inputsOf history) times.start times.parsed reads.memoized.mode
  semantic : Seen (inputsOf history) times.start times.parsed reads.memoized.manifest.semantic
  files : Seen history times.parsed times.probed reads.memoized.manifest.files
  environment : Seen history times.parsed times.probed reads.memoized.manifest.environment
  directories : Seen history times.parsed times.probed reads.memoized.manifest.directories
  identity : Seen (inputsOf history) times.parsed times.probed reads.memoized.manifest.identity
  discovery' : Seen (inputsOf history) times.probed times.validated reads.authoritative.discovery
  npmrc' : Seen (inputsOf history) times.probed times.validated reads.authoritative.npmrc
  mode' : Seen (inputsOf history) times.probed times.validated reads.authoritative.mode
  semantic' : Seen (inputsOf history) times.probed times.validated
    reads.authoritative.manifest.semantic
  files' : Seen history times.probed times.validated reads.authoritative.manifest.files
  environment' : Seen history times.probed times.validated
    reads.authoritative.manifest.environment
  directories' : Seen history times.probed times.validated
    reads.authoritative.manifest.directories
  identity' : Seen (inputsOf history) times.probed times.validated
    reads.authoritative.manifest.identity
  compare : Seen (inputsOf history) times.probed times.validated reads.compare
  assembly : Seen (inputsOf history) times.validated times.assembled reads.assembly
  checkFiles : Seen history times.assembled times.stop reads.check.files
  checkEnvironment : Seen history times.assembled times.stop reads.check.environment
  checkDirectories : Seen history times.assembled times.stop reads.check.directories

/-- A path that is not there has no content, and what has a canonical path is there. -/
structure Consistent (world : World) : Prop where
  absent : ∀ path, world (.symlinkMetadata path) = none →
    world.inputs (.read path) = none ∧ world.inputs (.canonicalize path) = none
  present : ∀ path, world.inputs (.present path) = (world.inputs (.canonicalize path)).isSome

/-- The variables that are probed for every manifest. -/
def environmentNames : List Str :=
  [lit "DENO_DIR", lit "DENO_NO_PACKAGE_JSON", lit "JSR_URL", lit "NPM_CONFIG_MIN_RELEASE_AGE",
    lit "npm_config_min_release_age"] ++ registryNames ++ replaceRegistryHostNames

/-- The questions about the inputs a manifest probes. -/
def Probed (manifest : ResolverInputManifest) : Query → Prop
  | .input (.read path) => path ∈ manifest.probe.files.map FileProbe.path
  | .input (.canonicalize path) => path ∈ manifest.probe.files.map FileProbe.path
  | .input (.present path) => path ∈ manifest.probe.files.map FileProbe.path
  | .input (.env name) => name ∈ environmentNames ∨
      name ∈ manifest.probe.environment.referencedNpmrcVars.map EnvironmentValueProbe.name
  | .input .homeDir => True
  | .input .currentDir => False
  | .symlinkMetadata path => path ∈ manifest.probe.files.map FileProbe.path
  | .metadata path => path ∈ manifest.probe.files.map FileProbe.path
  | .readLink path => path ∈ manifest.probe.files.map FileProbe.path

/-- The fingerprints of a manifest tell the contents of its inputs apart. -/
structure FingerprintsInjective {Url : Type} (hashing : Hashing) (urls : UrlApi Url)
    (history : Nat → World) (times : Times) (built check : Reads)
    (manifest : ResolverInputManifest) : Prop where
  paths : SeparatesPaths hashing built.files check.files
  /-- Files that are not hashed do not change without a change of their metadata. -/
  metadata : ∀ probe ∈ manifest.probe.files, probe.kind = .metadata →
    ∀ t t', times.start ≤ t → t ≤ times.stop → times.start ≤ t' → t' ≤ times.stop →
    metadataFingerprint (history t) probe.path = metadataFingerprint (history t') probe.path →
    history t (.metadata probe.path) = history t' (.metadata probe.path) ∧
      inputsOf history t (.read probe.path) = inputsOf history t' (.read probe.path)
  environment : environmentProbeWith urls built.environment none [] =
      environmentProbeWith urls check.environment none [] →
    ∀ name ∈ environmentNames,
      built.environment.inputs (.env name) = check.environment.inputs (.env name)
  values : ∀ value ∈ manifest.probe.environment.referencedNpmrcVars,
    envValueFingerprint hashing built.environment value.name =
      envValueFingerprint hashing check.environment value.name →
    built.environment.inputs (.env value.name) = check.environment.inputs (.env value.name)
  home : globalNpmrcPath built.files.inputs = globalNpmrcPath check.environment.inputs →
    built.files.inputs .homeDir = check.environment.inputs .homeDir

section Disciplined

variable {Url Config Stack : Type} (hashing : Hashing)
  (urls : UrlApi Url) (configs : ConfigApi Config) (api : ResolverApi Url Config Stack)
  (initialCwd : PathBuf) (configStartPaths : List PathBuf)

/-- Within an attempt only probed inputs change, and none of them returns to an earlier
content. -/
structure Disciplined (history : Nat → World) (times : Times) (reads : AttemptReads) :
    Prop where
  consistent : ∀ t, Consistent (history t)
  noReturn : ∀ q, NoReturn history times.start times.stop q
  onlyProbed : ∀ parsed,
    parseInputs hashing urls configs api initialCwd configStartPaths reads.memoized = .ok parsed →
    ∀ q, ¬ Probed parsed.manifest q → ∀ t, times.start ≤ t → t ≤ times.stop →
      history t q = history times.start q
  injective : ∀ parsed,
    parseInputs hashing urls configs api initialCwd configStartPaths reads.memoized = .ok parsed →
    FingerprintsInjective hashing urls history times reads.memoized.manifest reads.check
      parsed.manifest

end Disciplined

section Results

variable {Url Config Stack : Type} {hashing : Hashing}
  {urls : UrlApi Url} {configs : ConfigApi Config} {api : ResolverApi Url Config Stack}
  {initialCwd : PathBuf} {configStartPaths : List PathBuf}

/-! ### What one parse says -/

theorem parseInputs_inv {reads : ParseReads} {parsed : Parsed Url Config}
    (h : parseInputs hashing urls configs api initialCwd configStartPaths reads = .ok parsed) :
    ∃ npmrcPath,
      api.workspaceDirectory initialCwd configStartPaths reads.discovery = .ok parsed.dir ∧
      api.npmrcWithPath parsed.dir reads.npmrc = .ok (parsed.npmrc, npmrcPath) ∧
      api.byonmAndRoot parsed.dir reads.mode = .ok parsed.mode ∧
      parsed.managedRoot =
        managedRootNodeModulesPath parsed.dir.workspace parsed.mode initialCwd ∧
      manifestFromWorkspace hashing urls configs initialCwd configStartPaths parsed.dir
        parsed.npmrc
        { npmrcPath := npmrcPath, byonm := parsed.mode.1, nodeModulesPath := parsed.mode.2
          managedRootPath := parsed.managedRoot } reads.manifest = .ok parsed.manifest := by
  rw [parseInputs] at h
  cases hdir : api.workspaceDirectory initialCwd configStartPaths reads.discovery with
  | error e =>
      rw [hdir] at h
      cases h
  | ok dir =>
      rw [hdir] at h
      cases hnpmrc : api.npmrcWithPath dir reads.npmrc with
      | error e =>
          simp only [bind, Except.bind, hnpmrc] at h
          cases h
      | ok found =>
          obtain ⟨npmrc, npmrcPath⟩ := found
          cases hmode : api.byonmAndRoot dir reads.mode with
          | error e =>
              simp only [bind, Except.bind, hnpmrc, hmode] at h
              cases h
          | ok mode =>
              simp only [bind, Except.bind, hnpmrc, hmode] at h
              split at h
              · cases h
              · rename_i manifest hmanifest
                injection h with h
                rw [← h]
                exact ⟨npmrcPath, rfl, hnpmrc, hmode, rfl, hmanifest⟩

/-- The probe of what was parsed. -/
theorem parseInputs_probe {reads : ParseReads} {parsed : Parsed Url Config}
    (h : parseInputs hashing urls configs api initialCwd configStartPaths reads = .ok parsed) :
    ∃ semantics inputs, parsed.manifest.probe = rawProbe hashing urls reads.manifest semantics
      (npmConfigFingerprint urls configs parsed.npmrc).2 inputs := by
  obtain ⟨npmrcPath, -, -, -, -, hmanifest⟩ := parseInputs_inv h
  obtain ⟨semantics, -, hprobe⟩ := manifestFromWorkspace_inv hmanifest
  exact ⟨semantics, _, hprobe⟩

/-! ### Between the two probes -/

section Window

variable {history : Nat → World} {times : Times} {reads : AttemptReads}
  {parsed : Parsed Url Config} {t : Nat}
  (scheduled : Scheduled history times reads)
  (disciplined : Disciplined hashing urls configs api initialCwd configStartPaths history times
    reads)
  (hparsed : parseInputs hashing urls configs api initialCwd configStartPaths reads.memoized =
    .ok parsed)
  (hcurrent : isCurrent hashing urls parsed.manifest reads.check = true)

include scheduled disciplined

theorem between_files {q : Query}
    (same : reads.memoized.manifest.files q = reads.check.files q) (hfirst : times.probed ≤ t)
    (hlast : t ≤ times.assembled) : history t q = reads.memoized.manifest.files q :=
  (disciplined.noReturn q).between (scheduled.files.mono scheduled.order.1 (Nat.le_refl _))
    scheduled.checkFiles same hfirst hlast

theorem between_environment {q : Query}
    (same : reads.memoized.manifest.environment q = reads.check.environment q)
    (hfirst : times.probed ≤ t) (hlast : t ≤ times.assembled) :
    history t q = reads.memoized.manifest.environment q :=
  (disciplined.noReturn q).between
    (scheduled.environment.mono scheduled.order.1 (Nat.le_refl _)) scheduled.checkEnvironment
    same hfirst hlast

include hparsed

/-- A file that is probed by its metadata has the same metadata and the same content all the
time, if the metadata has the same fingerprint at both probes. -/
theorem metadata_between {probe : FileProbe} (mem : probe ∈ parsed.manifest.probe.files)
    (hkind : probe.kind = .metadata)
    (htarget : metadataFingerprint reads.memoized.manifest.files probe.path =
      metadataFingerprint reads.check.files probe.path) :
    ∃ content, ∀ t, times.probed ≤ t → t ≤ times.assembled →
      history t (.metadata probe.path) =
        reads.memoized.manifest.files (.metadata probe.path) ∧
      inputsOf history t (.read probe.path) = content := by
  have order := scheduled.order
  obtain ⟨s, hs, hprobed, hview⟩ := scheduled.files (.metadata probe.path)
  obtain ⟨s', hassembled, hs', hview'⟩ := scheduled.checkFiles (.metadata probe.path)
  have hmoments : metadataFingerprint (history s) probe.path =
      metadataFingerprint (history s') probe.path := by
    rw [metadataFingerprint, metadataFingerprint, ← hview, ← hview']
    exact htarget
  obtain ⟨hmetadata, hread⟩ := (disciplined.injective parsed hparsed).metadata probe mem hkind s s'
    (by omega) (by omega) (by omega) (by omega) hmoments
  refine ⟨inputsOf history s (.read probe.path), fun t hfirst hlast => ⟨?_, ?_⟩⟩
  · refine between_files scheduled disciplined ?_ hfirst hlast
    rw [hview, hview', hmetadata]
  · exact disciplined.noReturn (.input (.read probe.path)) s t s' (by omega) (by omega)
      (by omega) (by omega) hread

include hcurrent

omit scheduled disciplined in
theorem file_built {probe : FileProbe} (mem : probe ∈ parsed.manifest.probe.files) :
    probe.fingerprint = currentFileFingerprint hashing reads.memoized.manifest.files probe.path
        probe.kind ∧
      currentFileFingerprint hashing reads.check.files probe.path probe.kind =
        currentFileFingerprint hashing reads.memoized.manifest.files probe.path probe.kind := by
  obtain ⟨semantics, inputs, hprobe⟩ := parseInputs_probe hparsed
  have hsame := (isCurrent_inv hcurrent).1 probe mem
  rw [hprobe] at mem
  have hbuilt := mem_rawProbe_files mem
  exact ⟨hbuilt, hsame.trans hbuilt⟩

/-- A probed path was not there at both probes, or in the same state. -/
theorem file_cases {probe : FileProbe} (mem : probe ∈ parsed.manifest.probe.files) :
    (∀ t, times.probed ≤ t → t ≤ times.assembled →
      history t (.symlinkMetadata probe.path) = none ∧
      reads.memoized.manifest.files (.symlinkMetadata probe.path) = none) ∨
    ∃ metadata, (∀ t, times.probed ≤ t → t ≤ times.assembled →
        history t (.symlinkMetadata probe.path) = some metadata) ∧
      reads.memoized.manifest.files (.symlinkMetadata probe.path) = some metadata ∧
      pathState reads.memoized.manifest.files probe.path metadata
          (targetFingerprint hashing reads.memoized.manifest.files probe.path probe.kind) =
        pathState reads.check.files probe.path metadata
          (targetFingerprint hashing reads.check.files probe.path probe.kind) := by
  have hsame := (file_built hparsed hcurrent mem).2
  cases hthere : reads.memoized.manifest.files (.symlinkMetadata probe.path) with
  | none =>
      have hnone : reads.check.files (.symlinkMetadata probe.path) = none := by
        simp only [currentFileFingerprint, pathProbeFingerprint, hthere, Option.map_none,
          Option.map_eq_none_iff] at hsame
        exact hsame
      refine .inl fun t hfirst hlast => ⟨?_, rfl⟩
      rw [← hthere]
      exact between_files scheduled disciplined (hthere.trans hnone.symm) hfirst hlast
  | some metadata =>
      obtain ⟨metadata', hthere', hstate⟩ := pathState_of_fingerprint
        (disciplined.injective parsed hparsed).paths hthere hsame
      have hmetadata : metadata = metadata' := by
        have hsymlink := congrArg PathState.isSymlink hstate
        have hlen := congrArg PathState.len hstate
        have hmodified := congrArg PathState.modified hstate
        cases metadata
        cases metadata'
        simp only [pathState] at hsymlink hlen hmodified
        rw [hsymlink, hlen, hmodified]
      subst hmetadata
      refine .inr ⟨metadata, fun t hfirst hlast => ?_, rfl, hstate⟩
      rw [← hthere]
      exact between_files scheduled disciplined (hthere.trans hthere'.symm) hfirst hlast

/-- A probed file is the same all the time: what its fingerprint is made of, and what a
resolver reads of it. -/
theorem file_between {probe : FileProbe} (mem : probe ∈ parsed.manifest.probe.files) :
    (∀ t, times.probed ≤ t → t ≤ times.assembled →
      currentFileFingerprint hashing (history t) probe.path probe.kind = probe.fingerprint) ∧
    (∃ content, ∀ t, times.probed ≤ t → t ≤ times.assembled →
      inputsOf history t (.read probe.path) = content) ∧
    ∃ canonical, ∀ t, times.probed ≤ t → t ≤ times.assembled →
      inputsOf history t (.canonicalize probe.path) = canonical := by
  obtain ⟨hbuilt, -⟩ := file_built hparsed hcurrent mem
  rcases file_cases scheduled disciplined hparsed hcurrent mem with
    hnone | ⟨metadata, hsome, hthere, hstate⟩
  · refine ⟨fun t hfirst hlast => ?_, ⟨none, fun t hfirst hlast => ?_⟩,
      ⟨none, fun t hfirst hlast => ?_⟩⟩
    · obtain ⟨hnow, hthere⟩ := hnone t hfirst hlast
      rw [hbuilt]
      simp only [currentFileFingerprint, pathProbeFingerprint, hnow, hthere, Option.map_none]
    · exact ((disciplined.consistent t).absent probe.path (hnone t hfirst hlast).1).1
    · exact ((disciplined.consistent t).absent probe.path (hnone t hfirst hlast).1).2
  · have hlink : ∀ t, times.probed ≤ t → t ≤ times.assembled → history t (.readLink probe.path) =
        reads.memoized.manifest.files (.readLink probe.path) := fun t hfirst hlast =>
      between_files scheduled disciplined (congrArg PathState.link hstate) hfirst hlast
    have hcanonical : ∀ t, times.probed ≤ t → t ≤ times.assembled →
        history t (.input (.canonicalize probe.path)) =
          reads.memoized.manifest.files (.input (.canonicalize probe.path)) :=
      fun t hfirst hlast =>
        between_files scheduled disciplined (congrArg PathState.canonical hstate) hfirst hlast
    -- The content is what the fingerprint says, or hangs on the metadata it is made of.
    have htarget : ∃ content, ∀ t, times.probed ≤ t → t ≤ times.assembled →
        targetFingerprint hashing (history t) probe.path probe.kind =
          targetFingerprint hashing reads.memoized.manifest.files probe.path probe.kind ∧
        inputsOf history t (.read probe.path) = content := by
      have htargets := congrArg PathState.target hstate
      cases hkind : probe.kind with
      | content =>
          rw [hkind] at htargets
          have hread := read_of_contentFingerprint (disciplined.injective parsed hparsed).paths
            htargets
          refine ⟨reads.memoized.manifest.files (.input (.read probe.path)),
            fun t hfirst hlast => ?_⟩
          have hnow : history t (.input (.read probe.path)) = _ :=
            between_files scheduled disciplined hread hfirst hlast
          exact ⟨by simp only [targetFingerprint, contentFingerprint, World.inputs, hnow], hnow⟩
      | metadata =>
          rw [hkind] at htargets
          obtain ⟨content, hbetween⟩ :=
            metadata_between scheduled disciplined hparsed mem hkind htargets
          refine ⟨content, fun t hfirst hlast => ?_⟩
          obtain ⟨hmetadata, hread⟩ := hbetween t hfirst hlast
          exact ⟨by simp only [targetFingerprint, metadataFingerprint, hmetadata], hread⟩
    obtain ⟨content, htarget⟩ := htarget
    refine ⟨fun t hfirst hlast => ?_, ⟨content, fun t hfirst hlast => ?_⟩,
      ⟨_, fun t hfirst hlast => hcanonical t hfirst hlast⟩⟩
    · rw [hbuilt, currentFileFingerprint, currentFileFingerprint, (htarget t hfirst hlast).1]
      simp only [pathProbeFingerprint, hsome t hfirst hlast, hthere, pathState,
        hlink t hfirst hlast, World.inputs, hcanonical t hfirst hlast]
    · exact (htarget t hfirst hlast).2

/-! ### The environment between the two probes -/

omit scheduled disciplined hparsed hcurrent

theorem firstVar_congr {env env' : Environment} {names : List Str}
    (h : ∀ name ∈ names, env name = env' name) : firstVar env names = firstVar env' names := by
  induction names with
  | nil => rfl
  | cons name names ih =>
      have hvar : env.var name = env'.var name := by
        rw [Environment.var, Environment.var, h name List.mem_cons_self]
      have hrest := ih fun name' mem => h name' (List.mem_cons_of_mem _ mem)
      rw [firstVar, firstVar] at hrest
      rw [firstVar, firstVar, List.findSome?_cons, List.findSome?_cons, hvar, hrest]

/-- The probe of the environment depends on the probed variables only. -/
theorem environmentProbeWith_congr {world world' : World}
    (h : ∀ name ∈ environmentNames, world.inputs (.env name) = world'.inputs (.env name))
    (globalNpmrc : Option PathBuf) (vars : List EnvironmentValueProbe) :
    environmentProbeWith urls world globalNpmrc vars =
      environmentProbeWith urls world' globalNpmrc vars := by
  have hfirst : ∀ names : List Str, (names.all fun name => environmentNames.contains name) = true →
      firstVar world.inputs.environment names = firstVar world'.inputs.environment names := by
    intro names hall
    refine firstVar_congr fun name mem => h name ?_
    simpa using List.all_eq_true.mp hall name mem
  simp only [environmentProbeWith, envUrlIdentity, envUrlHasUserinfo,
    envReplaceRegistryHostIdentity, envReplaceRegistryHostHasAuth, envScalarIdentity,
    hfirst [lit "JSR_URL"] (by decide), hfirst registryNames (by decide),
    hfirst replaceRegistryHostNames (by decide),
    hfirst [lit "NPM_CONFIG_MIN_RELEASE_AGE", lit "npm_config_min_release_age"] (by decide),
    h (lit "DENO_DIR") (by decide), h (lit "DENO_NO_PACKAGE_JSON") (by decide)]

/-- What the probe of the environment was made of. -/
theorem environment_built
    (hparsed : parseInputs hashing urls configs api initialCwd configStartPaths reads.memoized =
      .ok parsed) :
    (∃ vars, parsed.manifest.probe.environment =
      environmentProbeWith urls reads.memoized.manifest.environment
        (globalNpmrcPath reads.memoized.manifest.files.inputs) vars) ∧
    ∀ value ∈ parsed.manifest.probe.environment.referencedNpmrcVars,
      value.fingerprint =
        envValueFingerprint hashing reads.memoized.manifest.environment value.name := by
  obtain ⟨semantics, inputs, hprobe⟩ := parseInputs_probe hparsed
  rw [hprobe]
  refine ⟨⟨_, rfl⟩, fun value mem => ?_⟩
  cases hauth : (npmConfigFingerprint urls configs parsed.npmrc).2 with
  | true =>
      rw [hauth] at mem
      cases mem
  | false =>
      rw [hauth] at mem
      exact ((mem_referencedNpmrcVars value).mp mem).2

include hparsed hcurrent

/-- The check compares the environment of the probe with the one it sees. -/
theorem environment_check :
    environmentProbeWith urls reads.memoized.manifest.environment none [] =
      environmentProbeWith urls reads.check.environment none [] ∧
    globalNpmrcPath reads.memoized.manifest.files.inputs =
      globalNpmrcPath reads.check.environment.inputs ∧
    ∀ value ∈ parsed.manifest.probe.environment.referencedNpmrcVars,
      envValueFingerprint hashing reads.memoized.manifest.environment value.name =
        envValueFingerprint hashing reads.check.environment value.name := by
  have hcheck := (isCurrent_inv hcurrent).2.2.2
  obtain ⟨⟨vars, hbuilt⟩, hvalues⟩ := environment_built hparsed
  refine ⟨?_, ?_, fun value mem => ?_⟩
  · rw [hbuilt] at hcheck
    exact (congrArg (fun probe : EnvironmentProbe =>
      { probe with globalNpmrc := none, referencedNpmrcVars := [] }) hcheck).symm
  · rw [hbuilt] at hcheck
    exact (congrArg EnvironmentProbe.globalNpmrc hcheck).symm
  · have hvars := congrArg EnvironmentProbe.referencedNpmrcVars hcheck
    have hsame := List.map_inj_left.mp (hvars.trans (List.map_id _).symm) value mem
    rw [← hvalues value mem]
    exact (congrArg EnvironmentValueProbe.fingerprint hsame).symm

include scheduled disciplined

/-- A probed variable has the value of the probe all the time. -/
theorem environment_between {name : Str} (mem : Probed parsed.manifest (.input (.env name)))
    (hfirst : times.probed ≤ t) (hlast : t ≤ times.assembled) :
    history t (.input (.env name)) =
      reads.memoized.manifest.environment (.input (.env name)) := by
  obtain ⟨hfixed, -, hvalues⟩ := environment_check hparsed hcurrent
  have hinjective := disciplined.injective parsed hparsed
  refine between_environment scheduled disciplined ?_ hfirst hlast
  rcases mem with mem | mem
  · exact hinjective.environment hfixed name mem
  · obtain ⟨value, hvalue, rfl⟩ := List.mem_map.mp mem
    exact hinjective.values value hvalue (hvalues value hvalue)

/-- The home directory is the one of the probe all the time. -/
theorem home_between (hfirst : times.probed ≤ t) (hlast : t ≤ times.assembled) :
    history t (.input .homeDir) = reads.memoized.manifest.files (.input .homeDir) := by
  obtain ⟨-, hhome, -⟩ := environment_check hparsed hcurrent
  exact (disciplined.noReturn _).between
    (scheduled.files.mono scheduled.order.1 (Nat.le_refl _)) scheduled.checkEnvironment
    ((disciplined.injective parsed hparsed).home hhome) hfirst hlast

omit hcurrent in
/-- What is not probed is what it was. -/
theorem unprobed_between {q : Query} (hq : ¬ Probed parsed.manifest q)
    (hfirst : times.probed ≤ t) (hlast : t ≤ times.assembled) :
    history t q = history times.start q := by
  have order := scheduled.order
  exact disciplined.onlyProbed parsed hparsed q hq t (by omega) (by omega)

/-! ### One moment -/

/-- Nothing a resolver reads changes between the probes. -/
theorem inputs_between (hfirst : times.probed ≤ t) (hlast : t ≤ times.assembled) :
    inputsOf history t = inputsOf history times.probed := by
  have order := scheduled.order
  have hconstant : ∀ q, ∃ answer, ∀ t, times.probed ≤ t → t ≤ times.assembled →
      inputsOf history t q = answer := by
    intro q
    by_cases hq : Probed parsed.manifest (.input q)
    · cases q with
      | read path =>
          obtain ⟨probe, mem, rfl⟩ := List.mem_map.mp hq
          exact (file_between scheduled disciplined hparsed hcurrent mem).2.1
      | canonicalize path =>
          obtain ⟨probe, mem, rfl⟩ := List.mem_map.mp hq
          exact (file_between scheduled disciplined hparsed hcurrent mem).2.2
      | present path =>
          obtain ⟨probe, mem, rfl⟩ := List.mem_map.mp hq
          obtain ⟨canonical, hcanonical⟩ :=
            (file_between scheduled disciplined hparsed hcurrent mem).2.2
          refine ⟨canonical.isSome, fun t hfirst hlast => ?_⟩
          exact ((disciplined.consistent t).present probe.path).trans
            (congrArg Option.isSome (hcanonical t hfirst hlast))
      | env name =>
          exact ⟨_, fun t => environment_between scheduled disciplined hparsed hcurrent hq⟩
      | homeDir => exact ⟨_, fun t => home_between scheduled disciplined hparsed hcurrent⟩
      | currentDir => exact absurd hq id
    · exact ⟨_, fun t => unprobed_between scheduled disciplined hparsed hq⟩
  funext q
  obtain ⟨answer, hanswer⟩ := hconstant q
  rw [hanswer t hfirst hlast, hanswer times.probed (Nat.le_refl _) (by omega)]

/-- A pass between the probes sees what was the case. -/
theorem seen_between {first last : Nat} {view : Inputs}
    (seen : Seen (inputsOf history) first last view) (hfirst : times.probed ≤ first)
    (hlast : last ≤ times.assembled) : view = inputsOf history times.probed := by
  funext q
  refine seen.eq_of_constant fun t h h' => ?_
  rw [inputs_between scheduled disciplined hparsed hcurrent (hfirst.trans h) (h'.trans hlast)]

end Window

/-- The files and the environment of a world are what the probe of a manifest describes. -/
def Describes {Url : Type} (hashing : Hashing) (urls : UrlApi Url)
    (manifest : ResolverInputManifest) (world : World) : Prop :=
  (∀ probe ∈ manifest.probe.files,
    currentFileFingerprint hashing world probe.path probe.kind = probe.fingerprint) ∧
  currentEnvironmentProbe hashing urls world manifest.probe.environment =
    manifest.probe.environment

/-- A parse that reads everything at one moment. -/
def ParseReads.at (world : World) : ParseReads where
  discovery := world.inputs
  npmrc := world.inputs
  mode := world.inputs
  manifest := ⟨world.inputs, world, world, world, world.inputs⟩

theorem describes_between {history : Nat → World} {times : Times} {reads : AttemptReads}
    {parsed : Parsed Url Config} {t : Nat} (scheduled : Scheduled history times reads)
    (disciplined : Disciplined hashing urls configs api initialCwd configStartPaths history times
      reads)
    (hparsed : parseInputs hashing urls configs api initialCwd configStartPaths reads.memoized =
      .ok parsed)
    (hcurrent : isCurrent hashing urls parsed.manifest reads.check = true)
    (hfirst : times.probed ≤ t) (hlast : t ≤ times.assembled) :
    Describes hashing urls parsed.manifest (history t) := by
  have order := scheduled.order
  refine ⟨fun probe mem => ?_, ?_⟩
  · exact (file_between scheduled disciplined hparsed hcurrent mem).1 t hfirst hlast
  -- The probed files have not changed; what is left is the environment.
  obtain ⟨⟨vars, hbuilt⟩, hvalues⟩ := environment_built hparsed
  have hfixed : ∀ globalNpmrc vars, environmentProbeWith urls (history t) globalNpmrc vars =
      environmentProbeWith urls reads.memoized.manifest.environment globalNpmrc vars :=
    environmentProbeWith_congr fun name mem =>
      environment_between scheduled disciplined hparsed hcurrent (.inl mem) hfirst hlast
  have hglobal : globalNpmrcPath (history t).inputs =
      globalNpmrcPath reads.memoized.manifest.files.inputs := by
    have hhome : (history t).inputs .homeDir = reads.memoized.manifest.files.inputs .homeDir :=
      home_between scheduled disciplined hparsed hcurrent hfirst hlast
    have hcwd : (history t).inputs .currentDir =
        reads.memoized.manifest.files.inputs .currentDir := by
      have hnow := unprobed_between (q := .input .currentDir) scheduled disciplined hparsed id
        hfirst hlast
      have hthen := scheduled.files.eq_of_constant (q := .input .currentDir) fun s hs hs' =>
        disciplined.onlyProbed parsed hparsed (.input .currentDir) id s (by omega) (by omega)
      exact hnow.trans hthen.symm
    simp only [globalNpmrcPath, absolutePath, hhome, hcwd]
  have hvars : (parsed.manifest.probe.environment.referencedNpmrcVars.map fun value =>
      ({ name := value.name
         fingerprint := envValueFingerprint hashing (history t) value.name } :
        EnvironmentValueProbe)) =
      parsed.manifest.probe.environment.referencedNpmrcVars := by
    refine (List.map_inj_left.mpr fun value mem => ?_).trans (List.map_id _)
    have hraw : (history t).inputs (.env value.name) =
        reads.memoized.manifest.environment.inputs (.env value.name) :=
      environment_between scheduled disciplined hparsed hcurrent
        (.inr (List.mem_map_of_mem mem)) hfirst hlast
    have hvalue : envValueFingerprint hashing (history t) value.name = value.fingerprint := by
      rw [hvalues value mem]
      simp only [envValueFingerprint, World.var, Environment.var, Inputs.environment, hraw]
    rw [hvalue]
    rfl
  rw [currentEnvironmentProbe, hvars, hfixed, hglobal, hbuilt]
  rfl

/-- What a parse says besides its probe depends on what its parts read, not on what it
probed. -/
theorem parseInputs_same {reads : ParseReads} {parsed : Parsed Url Config} (reads' : ParseReads)
    (h : parseInputs hashing urls configs api initialCwd configStartPaths reads = .ok parsed)
    (discovery : reads'.discovery = reads.discovery) (npmrc : reads'.npmrc = reads.npmrc)
    (mode : reads'.mode = reads.mode)
    (semantic : reads'.manifest.semantic = reads.manifest.semantic)
    (identity : reads'.manifest.identity = reads.manifest.identity) :
    ∃ parsed', parseInputs hashing urls configs api initialCwd configStartPaths reads' =
        .ok parsed' ∧ parsed'.dir = parsed.dir ∧ parsed'.npmrc = parsed.npmrc ∧
      parsed'.mode = parsed.mode ∧ parsed'.managedRoot = parsed.managedRoot ∧
      parsed'.manifest.identity = parsed.manifest.identity := by
  obtain ⟨npmrcPath, hdir, hnpmrc, hmode, hroot, hmanifest⟩ := parseInputs_inv h
  obtain ⟨manifest', hmanifest', hidentity⟩ :=
    manifestFromWorkspace_identity hmanifest semantic identity
  rw [hroot] at hmanifest'
  refine ⟨{ parsed with manifest := manifest' }, ?_, rfl, rfl, rfl, rfl, hidentity⟩
  rw [parseInputs, discovery, npmrc, mode, hdir]
  simp only [bind, Except.bind, hnpmrc, hmode, hmanifest', hroot]
  rfl

section Runs

variable [DecidableEq Url] [DecidableEq Config]

/-- What it takes for a build to give a stack. -/
theorem buildOnce_inv {reads : AttemptReads} {services : SharedServices Stack}
    (h : buildOnce hashing urls configs api initialCwd configStartPaths reads = .ok services) :
    ∃ parsed authoritative,
      parseInputs hashing urls configs api initialCwd configStartPaths reads.memoized =
        .ok parsed ∧
      parseInputs hashing urls configs api initialCwd configStartPaths reads.authoritative =
        .ok authoritative ∧
      parsesAgree urls configs reads.compare parsed authoritative = true ∧
      api.assemble parsed.dir parsed.npmrc parsed.mode reads.assembly = .ok services.stack ∧
      services.inputManifest = parsed.manifest := by
  rw [buildOnce, resolverInputManifest] at h
  cases hparsed : parseInputs hashing urls configs api initialCwd configStartPaths
      reads.memoized with
  | error e =>
      simp only [bind, Except.bind, hparsed] at h
      cases h
  | ok parsed =>
      cases hauthoritative : parseInputs hashing urls configs api initialCwd configStartPaths
          reads.authoritative with
      | error e =>
          simp only [bind, Except.bind, hparsed, hauthoritative] at h
          cases h
      | ok authoritative =>
          simp only [bind, Except.bind, hparsed, hauthoritative] at h
          by_cases hagree : parsesAgree urls configs reads.compare parsed authoritative = true
          · simp only [if_pos hagree, pure, Except.pure] at h
            cases hstack : api.assemble parsed.dir parsed.npmrc parsed.mode reads.assembly with
            | error e =>
                rw [hstack] at h
                cases h
            | ok stack =>
                rw [hstack] at h
                injection h with h
                rw [← h]
                exact ⟨parsed, authoritative, rfl, rfl, hagree, hstack, rfl⟩
          · simp only [if_neg hagree] at h
            cases h

/-- A stack is the one of a moment of its attempt: the manifest describes the contents of the
moment and has the identity that a parse of them has, everything after the probe read them,
and the memoized parse, from which the stack is assembled, agrees with a parse of them. -/
structure BuiltAt (hashing : Hashing) (urls : UrlApi Url) (configs : ConfigApi Config)
    (api : ResolverApi Url Config Stack) (initialCwd : PathBuf)
    (configStartPaths : List PathBuf) (history : Nat → World) (times : Times)
    (reads : AttemptReads) (services : SharedServices Stack) (t : Nat) : Prop where
  within : times.probed ≤ t ∧ t ≤ times.assembled
  describes : Describes hashing urls services.inputManifest (history t)
  validation : reads.authoritative.discovery = inputsOf history t ∧
    reads.authoritative.npmrc = inputsOf history t ∧
    reads.authoritative.mode = inputsOf history t ∧
    reads.authoritative.manifest.semantic = inputsOf history t ∧
    reads.authoritative.manifest.identity = inputsOf history t ∧
    reads.compare = inputsOf history t
  assembly : reads.assembly = inputsOf history t
  parses : ∃ parsed now,
    parseInputs hashing urls configs api initialCwd configStartPaths reads.memoized =
      .ok parsed ∧
    parseInputs hashing urls configs api initialCwd configStartPaths
      (ParseReads.at (history t)) = .ok now ∧
    services.inputManifest = parsed.manifest ∧
    services.inputManifest.identity = now.manifest.identity ∧
    parsesAgree urls configs (inputsOf history t) parsed now = true ∧
    api.assemble parsed.dir parsed.npmrc parsed.mode (inputsOf history t) = .ok services.stack

/-- A build whose manifest is current afterwards is the one of the moment it was probed at. -/
theorem builtAt {history : Nat → World} {times : Times} {reads : AttemptReads}
    {services : SharedServices Stack} (scheduled : Scheduled history times reads)
    (disciplined : Disciplined hashing urls configs api initialCwd configStartPaths history times
      reads)
    (hbuild : buildOnce hashing urls configs api initialCwd configStartPaths reads = .ok services)
    (hcurrent : isCurrent hashing urls services.inputManifest reads.check = true) :
    BuiltAt hashing urls configs api initialCwd configStartPaths history times reads services
      times.probed := by
  obtain ⟨parsed, authoritative, hparsed, hauthoritative, hagree, hstack, hmanifest⟩ :=
    buildOnce_inv hbuild
  rw [hmanifest] at hcurrent
  have order := scheduled.order
  -- The second parse and the assembly lie between the probes.
  have between : ∀ {first last view}, Seen (inputsOf history) first last view →
      times.probed ≤ first → last ≤ times.assembled → view = inputsOf history times.probed :=
    fun seen hfirst hlast =>
      seen_between scheduled disciplined hparsed hcurrent seen hfirst hlast
  have hdiscovery := between scheduled.discovery' (by omega) (by omega)
  have hnpmrc := between scheduled.npmrc' (by omega) (by omega)
  have hmode := between scheduled.mode' (by omega) (by omega)
  have hsemantic := between scheduled.semantic' (by omega) (by omega)
  have hidentity := between scheduled.identity' (by omega) (by omega)
  have hcompare := between scheduled.compare (by omega) (by omega)
  have hassembly := between scheduled.assembly (by omega) (by omega)
  obtain ⟨now, hnow, -, hnowNpmrc, hnowMode, hnowRoot, hnowIdentity⟩ := parseInputs_same
    (ParseReads.at (history times.probed)) hauthoritative hdiscovery.symm hnpmrc.symm
    hmode.symm hsemantic.symm hidentity.symm
  have hagreeNow : parsesAgree urls configs (inputsOf history times.probed) parsed now = true := by
    rw [parsesAgree, hnowIdentity, hnowNpmrc, hnowMode, hnowRoot, ← hcompare]
    exact hagree
  refine
    { within := ⟨Nat.le_refl _, by omega⟩
      describes := ?_
      validation := ⟨hdiscovery, hnpmrc, hmode, hsemantic, hidentity, hcompare⟩
      assembly := hassembly
      parses := ⟨parsed, now, hparsed, hnow, hmanifest, ?_, hagreeNow, ?_⟩ }
  · rw [hmanifest]
    exact describes_between scheduled disciplined hparsed hcurrent (Nat.le_refl _) (by omega)
  · simp only [parsesAgree, Bool.and_eq_true, decide_eq_true_eq] at hagreeNow
    rw [hmanifest]
    exact hagreeNow.1.1.1
  · rw [← hassembly]
    exact hstack

/-! ### The loop -/

/-- How the loop ends: with a build that is current afterwards, with the error of a build, or
because the inputs changed too often. -/
theorem newFrom_cases (reads : Nat → AttemptReads) (more attempt : Nat) :
    (newFrom hashing urls configs api initialCwd configStartPaths reads more attempt).2 ≤
      attempt + more ∧
    ∀ result builds,
      newFrom hashing urls configs api initialCwd configStartPaths reads more attempt =
        (result, builds) →
      (∃ last services, last < builds ∧ result = .ok services ∧
        buildOnce hashing urls configs api initialCwd configStartPaths (reads last) =
          .ok services ∧
        isCurrent hashing urls services.inputManifest (reads last).check = true) ∨
      (∃ last e, last < builds ∧ result = .error e ∧
        buildOnce hashing urls configs api initialCwd configStartPaths (reads last) =
          .error e) ∨
      result = .error resolverInputsChanged := by
  -- By induction on the attempts that are left.
  induction more generalizing attempt with
  | zero =>
      refine ⟨Nat.le_refl _, fun result builds h => ?_⟩
      obtain ⟨rfl, rfl⟩ := Prod.mk.inj h
      exact .inr (.inr rfl)
  | succ more ih =>
      obtain ⟨hle, hrest⟩ := ih (attempt + 1)
      rw [newFrom]
      split
      · rename_i e hbuild
        split
        · exact ⟨by omega, hrest⟩
        · refine ⟨by simp only []; omega, fun result builds h => ?_⟩
          obtain ⟨rfl, rfl⟩ := Prod.mk.inj h
          exact .inr (.inl ⟨attempt, e, Nat.lt_succ_self _, rfl, hbuild⟩)
      · rename_i candidate hbuild
        rw [stableBuildDecision]
        cases hcurrent :
            isCurrent hashing urls candidate.inputManifest (reads attempt).check with
        | true =>
            simp only [if_true]
            refine ⟨by omega, fun result builds h => ?_⟩
            obtain ⟨rfl, rfl⟩ := Prod.mk.inj h
            exact .inl ⟨attempt, candidate, Nat.lt_succ_self _, rfl, hbuild, hcurrent⟩
        | false =>
            simp only [Bool.false_eq_true, if_false]
            -- The inputs moved: another attempt, or the error.
            by_cases hmore : attempt + 1 < maxStableBuildAttempts
            · simp only [if_pos hmore]
              exact ⟨by omega, hrest⟩
            · simp only [if_neg hmore]
              refine ⟨by omega, fun result builds h => ?_⟩
              obtain ⟨rfl, rfl⟩ := Prod.mk.inj h
              exact .inr (.inr rfl)

end Runs

end Results

/-! ### A file that is rewritten with the same meaning -/

def sampleRoot : PathBuf := [lit "/"]

def sampleNpmrc : PathBuf := [lit "/", lit ".npmrc"]

/-- The root directory with an npmrc file that holds the given bytes. -/
def sampleWorld (bytes : List UInt8) : World
  | .input (.read path) => if path = sampleNpmrc then some bytes else none
  | .input (.canonicalize path) =>
      if path = sampleRoot ∨ path = sampleNpmrc then some path else none
  | .input (.present path) => decide (path = sampleRoot ∨ path = sampleNpmrc)
  | .input (.env _) => none
  | .input .homeDir => none
  | .input .currentDir => some sampleRoot
  | .symlinkMetadata path =>
      if path = sampleRoot ∨ path = sampleNpmrc then some ⟨false, 1, some 1⟩ else none
  | .metadata path =>
      if path = sampleRoot ∨ path = sampleNpmrc then some ⟨false, 1, some 1⟩ else none
  | .readLink _ => none

/-- The file is a comment all the time, with `#` first and with `;` later. -/
def sampleHistory (t : Nat) : World := sampleWorld (if t = 0 then [35] else [59])

def sampleWorkspace : WorkspaceDirectory where
  workspace :=
    { resolverDenoJsons := []
      packageJsons := []
      linkPkgJsons := []
      configFolders := []
      linkFolders := []
      lockfilePath := .ok none
      rootDirPath := sampleRoot
      rootDenoJsonDir := none
      rootPkgJsonPath := none }
  dirPath := sampleRoot

/-- The resolver of a directory without a config file. -/
def sampleApi : ResolverApi PlainUrl (Option Str) Unit where
  workspaceDirectory _ _ _ := .ok sampleWorkspace
  npmrcWithPath _ inputs :=
    if inputs (.read sampleNpmrc) = some [35] ∨ inputs (.read sampleNpmrc) = some [59] then
      .ok (publicNpmrc, some sampleNpmrc)
    else .error "npmrc"
  byonmAndRoot _ _ := .ok (false, none)
  assemble _ _ _ _ := .ok ()

/-- Hashes that tell the two contents apart. -/
def firstByteHashing : Hashing where
  bytes bytes := bytes.head?.elim 0 UInt8.toUInt64
  path state := state.target.elim 0 Prod.fst
  toVec _ := []

def sampleTimes : Times := ⟨0, 0, 1, 1, 1, 1⟩

/-- The first parse sees what was the case at first, everything else what is after that. -/
def lateReads (history : Nat → World) : AttemptReads where
  memoized :=
    { discovery := inputsOf history 0
      npmrc := inputsOf history 0
      mode := inputsOf history 0
      manifest := ⟨inputsOf history 0, history 1, history 1, history 1, inputsOf history 1⟩ }
  authoritative := ParseReads.at (history 1)
  compare := inputsOf history 1
  assembly := inputsOf history 1
  check := ⟨inputsOf history 1, history 1, history 1, history 1, inputsOf history 1⟩

theorem lateReads_scheduled (history : Nat → World) :
    Scheduled history sampleTimes (lateReads history) where
  order := by decide
  discovery := fun _ => ⟨0, by decide, by decide, rfl⟩
  npmrc := fun _ => ⟨0, by decide, by decide, rfl⟩
  mode := fun _ => ⟨0, by decide, by decide, rfl⟩
  semantic := fun _ => ⟨0, by decide, by decide, rfl⟩
  files := fun _ => ⟨1, by decide, by decide, rfl⟩
  environment := fun _ => ⟨1, by decide, by decide, rfl⟩
  directories := fun _ => ⟨1, by decide, by decide, rfl⟩
  identity := fun _ => ⟨1, by decide, by decide, rfl⟩
  discovery' := fun _ => ⟨1, by decide, by decide, rfl⟩
  npmrc' := fun _ => ⟨1, by decide, by decide, rfl⟩
  mode' := fun _ => ⟨1, by decide, by decide, rfl⟩
  semantic' := fun _ => ⟨1, by decide, by decide, rfl⟩
  files' := fun _ => ⟨1, by decide, by decide, rfl⟩
  environment' := fun _ => ⟨1, by decide, by decide, rfl⟩
  directories' := fun _ => ⟨1, by decide, by decide, rfl⟩
  identity' := fun _ => ⟨1, by decide, by decide, rfl⟩
  compare := fun _ => ⟨1, by decide, by decide, rfl⟩
  assembly := fun _ => ⟨1, by decide, by decide, rfl⟩
  checkFiles := fun _ => ⟨1, by decide, by decide, rfl⟩
  checkEnvironment := fun _ => ⟨1, by decide, by decide, rfl⟩
  checkDirectories := fun _ => ⟨1, by decide, by decide, rfl⟩

/-- Between two moments nothing returns. -/
theorem sampleTimes_noReturn (history : Nat → World) (q : Query) :
    NoReturn history sampleTimes.start sampleTimes.stop q := by
  intro t t' t'' _ h h' hlast heq
  have hlast : t'' ≤ 1 := hlast
  have hends : t' = t ∨ t' = t'' := by omega
  rcases hends with rfl | rfl
  · rfl
  · exact heq.symm

abbrev sampleParse (reads : ParseReads) : Except String (Parsed PlainUrl (Option Str)) :=
  parseInputs firstByteHashing plainUrls tokens sampleApi sampleRoot [] reads

/-- What both parses say, and what the first one probes. -/
theorem sample_parsed : ∃ parsed authoritative semantics,
    sampleParse (lateReads sampleHistory).memoized = .ok parsed ∧
    sampleParse (lateReads sampleHistory).authoritative = .ok authoritative ∧
    parsesAgree plainUrls tokens (lateReads sampleHistory).compare parsed authoritative = true ∧
    parsed.manifest.probe = rawProbe firstByteHashing plainUrls
      (lateReads sampleHistory).memoized.manifest semantics false
      ⟨some sampleNpmrc, false, none, none⟩ := by
  refine ⟨_, _, _, rfl, rfl, ?_, rfl⟩
  simp [parsesAgree, npmSensitiveStateEqual, rootNodeModulesPathEqual]
  exact ⟨rfl, rfl, rfl, rfl, rfl⟩

theorem sample_read_probed {parsed : Parsed PlainUrl (Option Str)}
    (h : sampleParse (lateReads sampleHistory).memoized = .ok parsed) :
    Probed parsed.manifest (.input (.read sampleNpmrc)) := by
  obtain ⟨parsed', -, semantics, hparsed, -, -, hprobe⟩ := sample_parsed
  obtain rfl := Except.ok.inj (h.symm.trans hparsed)
  rw [Probed, hprobe]
  refine path_mem_rawProbe (sampleNpmrc, .content) ?_
  simp [probedFiles]

theorem sampleWorld_consistent (bytes : List UInt8) : Consistent (sampleWorld bytes) where
  absent := by
    intro path h
    have hpath : ¬ (path = sampleRoot ∨ path = sampleNpmrc) := by
      intro hpath
      simp [sampleWorld, hpath] at h
    rw [not_or] at hpath
    simp [World.inputs, sampleWorld, hpath]
  present := by
    intro path
    by_cases hpath : path = sampleRoot ∨ path = sampleNpmrc
    · simp [World.inputs, sampleWorld, hpath]
    · simp [World.inputs, sampleWorld, hpath]

theorem sample_disciplined : Disciplined firstByteHashing plainUrls tokens sampleApi sampleRoot []
    sampleHistory sampleTimes (lateReads sampleHistory) where
  consistent := fun t => sampleWorld_consistent _
  noReturn := sampleTimes_noReturn sampleHistory
  onlyProbed := by
    intro parsed hparsed q hq t _ _
    have hread := sample_read_probed hparsed
    cases q with
    | input query =>
        cases query with
        | read path =>
            have hpath : path ≠ sampleNpmrc := by
              rintro rfl
              exact hq hread
            simp [sampleHistory, sampleWorld, hpath]
        | _ => rfl
    | _ => rfl
  injective := by
    intro parsed hparsed
    obtain ⟨parsed', -, semantics, hparsed', -, -, hprobe⟩ := sample_parsed
    obtain rfl := Except.ok.inj (hparsed.symm.trans hparsed')
    exact
      { paths :=
          { bytes := by
              intro path bytes bytes' h h' _
              exact Option.some.inj (h.symm.trans h')
            path := by
              intro path kind metadata metadata' h h' _
              rw [Option.some.inj (h.symm.trans h')]
              rfl }
        metadata := by
          intro probe mem hkind
          rw [hprobe] at mem
          rw [kind_of_rawProbe mem] at hkind
          cases hkind
        environment := fun _ _ _ => rfl
        values := fun _ _ _ => rfl
        home := fun _ => rfl }

/-- The build is accepted at once. -/
theorem sample_builds : ∃ parsed, sampleParse (lateReads sampleHistory).memoized = .ok parsed ∧
    newWithTiming firstByteHashing plainUrls tokens sampleApi sampleRoot []
      (fun _ => lateReads sampleHistory) = (.ok ⟨(), parsed.manifest⟩, 1) := by
  obtain ⟨parsed, authoritative, semantics, hparsed, hauthoritative, hagree, hprobe⟩ :=
    sample_parsed
  have hcurrent : isCurrent firstByteHashing plainUrls parsed.manifest
      (lateReads sampleHistory).check = true :=
    isCurrent_unchanged hprobe rfl rfl rfl
  have hbuild : buildOnce firstByteHashing plainUrls tokens sampleApi sampleRoot []
      (lateReads sampleHistory) = .ok ⟨(), parsed.manifest⟩ := by
    rw [buildOnce, resolverInputManifest]
    simp only [bind, Except.bind, hparsed, hauthoritative, if_pos hagree]
    rfl
  refine ⟨parsed, hparsed, ?_⟩
  simp [newWithTiming, maxStableBuildAttempts, newFrom, hbuild, hcurrent, stableBuildDecision]

/-- The contents the probe describes are not those that the first parse read. -/
theorem sample_describes {parsed : Parsed PlainUrl (Option Str)}
    (h : sampleParse (lateReads sampleHistory).memoized = .ok parsed) (t : Nat)
    (describes : Describes firstByteHashing plainUrls parsed.manifest (sampleHistory t)) :
    (lateReads sampleHistory).memoized.npmrc ≠ inputsOf sampleHistory t := by
  obtain ⟨parsed', -, semantics, hparsed, -, -, hprobe⟩ := sample_parsed
  obtain ⟨probe, mem, hpath⟩ := List.mem_map.mp (sample_read_probed h)
  obtain rfl := Except.ok.inj (h.symm.trans hparsed)
  have hnow := describes.1 probe mem
  rw [hprobe] at mem
  rw [mem_rawProbe_files mem, kind_of_rawProbe mem, hpath] at hnow
  cases t with
  | zero => exact absurd hnow (by decide)
  | succ t =>
      intro hsame
      have hread : (some [35] : Option (List UInt8)) = some [59] :=
        congrFun hsame (.read sampleNpmrc)
      exact absurd hread (by decide)

/-- A file that is no npmrc, all the time. -/
def sampleBroken : Nat → World := fun _ => sampleWorld [0]

theorem sampleBroken_disciplined : Disciplined firstByteHashing plainUrls tokens sampleApi
    sampleRoot [] sampleBroken sampleTimes (lateReads sampleBroken) where
  consistent := fun _ => sampleWorld_consistent _
  noReturn := sampleTimes_noReturn sampleBroken
  onlyProbed := fun _ _ _ _ _ _ _ => rfl
  injective := by
    intro parsed hparsed
    cases hparsed

end Libdeno.NpmCache
