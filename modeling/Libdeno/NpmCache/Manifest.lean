import Libdeno.NpmCache.CanonicalJson
import Libdeno.NpmCache.Identity
import Libdeno.NpmCache.References

/-!
# Libdeno.NpmCache.Manifest

The manifest of the inputs a resolver was built from: the semantic identity of what was
parsed, a probe of every file and of the environment that may have mattered, and the check
that asks the system the same questions again. A manifest that is current was built from the
same bytes of every file it probes by content, and from the same values of every variable an
unauthenticated npmrc refers to, if the scanner sees all references of that npmrc.
-/

namespace Libdeno.NpmCache

open Lines
open Snapshot (Str lit)

/-! ### Paths -/

/-- A path as its components, the root one of them. -/
abbrev PathBuf := List Str

namespace PathBuf

def isAbsolute (path : PathBuf) : Bool := path.head? = some (lit "/")

def join (path more : PathBuf) : PathBuf := if isAbsolute more then more else path ++ more

def parent (path : PathBuf) : Option PathBuf :=
  if path = [] ∨ path = [lit "/"] then none else some path.dropLast

def fileName (path : PathBuf) : Option Str :=
  path.getLast?.filter fun name => name ≠ lit "/" ∧ name ≠ lit ".."

/-- The path and all its parents. -/
def ancestors (path : PathBuf) : List PathBuf :=
  path.inits.reverse.filter fun ancestor => !isAbsolute path || ancestor ≠ []

end PathBuf

/-! ### The system -/

/-- What `stat` and `lstat` say. `modified` is in nanoseconds since the epoch. -/
structure Metadata where
  isSymlink : Bool
  len : UInt64
  modified : Option UInt64
  deriving DecidableEq

/-- The questions about what a resolver is built from. -/
inductive InputQuery where
  | read (path : PathBuf)
  | canonicalize (path : PathBuf)
  | present (path : PathBuf)
  | env (name : Str)
  | homeDir
  | currentDir
  deriving DecidableEq

/-- The answers, `none` for an error. -/
abbrev InputQuery.Answer : InputQuery → Type
  | .read _ => Option (List UInt8)
  | .canonicalize _ => Option PathBuf
  | .present _ => Bool
  | .env _ => Option (List UInt8)
  | .homeDir => Option PathBuf
  | .currentDir => Option PathBuf

/-- The questions the cache asks the system: those, and what it probes of a path besides. -/
inductive Query where
  | input (query : InputQuery)
  | symlinkMetadata (path : PathBuf)
  | metadata (path : PathBuf)
  | readLink (path : PathBuf)
  deriving DecidableEq

abbrev Query.Answer : Query → Type
  | .input query => query.Answer
  | .symlinkMetadata _ => Option Metadata
  | .metadata _ => Option Metadata
  | .readLink _ => Option PathBuf

/-- What a resolver is built from, at one moment or as one pass over it was answered. -/
abbrev Inputs := (query : InputQuery) → query.Answer

/-- What the system answers at one moment, or what one pass over it was answered. -/
abbrev World := (query : Query) → query.Answer

def World.inputs (world : World) : Inputs := fun query => world (.input query)

def Inputs.environment (inputs : Inputs) : Environment := fun name => inputs (.env name)

/-- `std::env::var(name).ok()`. -/
def World.var (world : World) (name : Str) : Option Str := world.inputs.environment.var name

/-! ### Hashing -/

/-- What is hashed of the state of a path. -/
structure PathState where
  isSymlink : Bool
  len : UInt64
  modified : Option UInt64
  link : Option PathBuf
  canonical : Option PathBuf
  target : Option (UInt64 × UInt64)
  deriving DecidableEq

/-- `DefaultHasher`, on the two kinds of things it is used on, and `serde_json::to_vec`. -/
structure Hashing where
  bytes : List UInt8 → UInt64
  path : PathState → UInt64
  toVec : Json → List UInt8

/-! ### What deno_config found -/

/-- A config file: its path if it has one, what is serialized of it and its external import
map. -/
structure ConfigFile where
  path : Option PathBuf
  json : Except String Json
  importMapPath : Except String (Option PathBuf)
  importMapValue : Inputs → Except String (Option Json)

structure PackageJson where
  path : PathBuf
  json : Except String Json

structure Workspace where
  resolverDenoJsons : List ConfigFile
  packageJsons : List PackageJson
  linkPkgJsons : List PackageJson
  configFolders : List (Option PathBuf)
  linkFolders : List (Option PathBuf)
  lockfilePath : Except String (Option PathBuf)
  rootDirPath : PathBuf
  rootDenoJsonDir : Option PathBuf
  rootPkgJsonPath : Option PathBuf

structure WorkspaceDirectory where
  workspace : Workspace
  dirPath : PathBuf

/-- `WorkspaceResolverInputs`. -/
structure WorkspaceResolverInputs where
  npmrcPath : Option PathBuf
  byonm : Bool
  nodeModulesPath : Option PathBuf
  managedRootPath : Option PathBuf

/-! ### The manifest -/

structure SemanticFingerprint where
  path : PathBuf
  hash : UInt64
  deriving DecidableEq

structure ResolverInputIdentity where
  initialCwd : PathBuf
  workspaceRoot : PathBuf
  discoveryDir : PathBuf
  members : List PathBuf
  links : List PathBuf
  configs : List SemanticFingerprint
  externalConfigs : List SemanticFingerprint
  packages : List SemanticFingerprint
  npmrc : NpmConfigFingerprint
  lockfile : Option PathBuf
  lockfilePresent : Bool
  byonm : Bool
  deriving DecidableEq

/-- How much of a file is probed: credentials are never hashed. -/
inductive FileProbeKind where
  | content
  | metadata
  deriving DecidableEq

structure FileProbe where
  path : PathBuf
  kind : FileProbeKind
  fingerprint : Option (UInt64 × UInt64)
  deriving DecidableEq

structure DirectoryProbe where
  path : PathBuf
  fingerprint : Option (UInt64 × UInt64)
  deriving DecidableEq

structure RootPathProbe where
  path : PathBuf
  identity : PathBuf
  deriving DecidableEq

structure EnvironmentValueProbe where
  name : Str
  fingerprint : Option (UInt64 × UInt64)
  deriving DecidableEq

structure EnvironmentProbe where
  denoDir : Option (List UInt8)
  noPackageJson : Bool
  jsrUrl : Option Str
  jsrUrlHasAuth : Bool
  registry : Option Str
  registryHasAuth : Bool
  replaceRegistryHost : Option Str
  replaceRegistryHostHasAuth : Bool
  minReleaseAge : Option Str
  globalNpmrc : Option PathBuf
  referencedNpmrcVars : List EnvironmentValueProbe
  deriving DecidableEq

structure ResolverInputProbe where
  files : List FileProbe
  byonmNodeModules : List DirectoryProbe
  managedRootNodeModules : Option RootPathProbe
  npmrcHasAuth : Bool
  environment : EnvironmentProbe
  deriving DecidableEq

structure ResolverInputManifest where
  identity : ResolverInputIdentity
  probe : ResolverInputProbe
  deriving DecidableEq

/-! ### Paths of a system -/

open PathBuf

/-- `absolute_path`. -/
def absolutePath (inputs : Inputs) (path : PathBuf) : PathBuf :=
  if isAbsolute path then path else join ((inputs .currentDir).getD [lit "."]) path

/-- `canonical_path`. -/
def canonicalPath (inputs : Inputs) (path : PathBuf) : PathBuf :=
  match inputs (.canonicalize path) with
  | some path => path
  | none =>
      let absolute := absolutePath inputs path
      match fileName absolute with
      | none => absolute
      | some name =>
          match (parent absolute).bind fun parent => inputs (.canonicalize parent) with
          | some parent => join parent [name]
          | none => absolute

/-- `global_npmrc_path`. -/
def globalNpmrcPath (inputs : Inputs) : Option PathBuf :=
  (inputs .homeDir).map fun home => absolutePath inputs (join home [lit ".npmrc"])

/-- `normalize_paths`. -/
def normalizePaths (paths : List PathBuf) : List PathBuf := sortDedup paths

/-- `normalize_semantic_fingerprints`. -/
def normalizeSemanticFingerprints (fingerprints : List SemanticFingerprint) :
    List SemanticFingerprint :=
  (fingerprints.insertionSort fun a b => a.path ≤ b.path).destutter fun a b => a.path ≠ b.path

/-- The order of the kinds. -/
def FileProbeKind.rank : FileProbeKind → Nat
  | .content => 0
  | .metadata => 1

/-- `normalize_file_probes`. -/
def normalizeFileProbes (probes : List FileProbe) : List FileProbe :=
  (probes.insertionSort fun a b =>
    a.path < b.path ∨ a.path = b.path ∧ a.kind.rank ≤ b.kind.rank).destutter fun a b =>
      ¬ (a.path = b.path ∧ a.kind = b.kind)

/-- `discovery_candidate_dirs`. -/
def discoveryCandidateDirs (inputs : Inputs) (initialCwd : PathBuf) (startPaths : List PathBuf) :
    List PathBuf :=
  ancestors (canonicalPath inputs initialCwd) ++
    startPaths.flatMap fun startPath => ancestors (canonicalPath inputs startPath)

/-- `collect_byonm_node_modules_paths`. -/
def collectByonmNodeModulesPaths (inputs : Inputs) (scopeDirs : List PathBuf) : List PathBuf :=
  scopeDirs.flatMap fun dir =>
    (ancestors dir).map fun ancestor => absolutePath inputs (join ancestor [lit "node_modules"])

/-! ### Probes -/

section Probes

variable (hashing : Hashing)

/-- `content_fingerprint`. -/
def contentFingerprint (world : World) (path : PathBuf) : Option (UInt64 × UInt64) :=
  (world.inputs (.read path)).map fun bytes => (hashing.bytes bytes, UInt64.ofNat bytes.length)

/-- `metadata_fingerprint`. -/
def metadataFingerprint (world : World) (path : PathBuf) : Option (UInt64 × UInt64) :=
  (world (.metadata path)).bind fun metadata =>
    metadata.modified.map fun modified => (modified, metadata.len)

/-- What is hashed of a path with this metadata. -/
def pathState (world : World) (path : PathBuf) (metadata : Metadata)
    (target : Option (UInt64 × UInt64)) : PathState :=
  { isSymlink := metadata.isSymlink
    len := metadata.len
    modified := metadata.modified
    link := world (.readLink path)
    canonical := world.inputs (.canonicalize path)
    target := target }

/-- `path_probe_fingerprint`. -/
def pathProbeFingerprint (world : World) (path : PathBuf) (target : Option (UInt64 × UInt64)) :
    Option (UInt64 × UInt64) :=
  (world (.symlinkMetadata path)).map fun metadata =>
    (hashing.path (pathState world path metadata target), (target.map Prod.snd).getD 0)

/-- The fingerprint of what a path leads to. -/
def targetFingerprint (world : World) (path : PathBuf) : FileProbeKind →
    Option (UInt64 × UInt64)
  | .content => contentFingerprint hashing world path
  | .metadata => metadataFingerprint world path

/-- `current_file_fingerprint`. -/
def currentFileFingerprint (world : World) (path : PathBuf) (kind : FileProbeKind) :
    Option (UInt64 × UInt64) :=
  pathProbeFingerprint hashing world path (targetFingerprint hashing world path kind)

/-- `current_directory_fingerprint`. -/
def currentDirectoryFingerprint (world : World) (path : PathBuf) : Option (UInt64 × UInt64) :=
  pathProbeFingerprint hashing world path (metadataFingerprint world path)

/-- `file_probe`. -/
def fileProbe (world : World) (path : PathBuf) (kind : FileProbeKind) : FileProbe :=
  { path := absolutePath world.inputs path
    kind := kind
    fingerprint := currentFileFingerprint hashing world (absolutePath world.inputs path) kind }

/-- `env_value_fingerprint`. -/
def envValueFingerprint (world : World) (name : Str) : Option (UInt64 × UInt64) :=
  (world.var name).map fun value =>
    (hashing.bytes (encodeUtf8 value), UInt64.ofNat (encodeUtf8 value).length)

/-- `referenced_env_names`, of the file. -/
def referencedEnvNamesOf (world : World) (path : PathBuf) : List Str :=
  match (world.inputs (.read path)).bind decodeUtf8 with
  | none => []
  | some text => referencedEnvNames text

variable {Url : Type} (urls : UrlApi Url)

/-- What both environment probes say, apart from the variables npmrc files refer to. -/
def environmentProbeWith (world : World) (globalNpmrc : Option PathBuf)
    (referencedNpmrcVars : List EnvironmentValueProbe) : EnvironmentProbe :=
  { denoDir := world.inputs (.env (lit "DENO_DIR"))
    noPackageJson := world.inputs (.env (lit "DENO_NO_PACKAGE_JSON")) = some (encodeUtf8 (lit "1"))
    jsrUrl := envUrlIdentity urls world.inputs.environment [lit "JSR_URL"]
    jsrUrlHasAuth := envUrlHasUserinfo urls world.inputs.environment [lit "JSR_URL"]
    registry := envUrlIdentity urls world.inputs.environment registryNames
    registryHasAuth := envUrlHasUserinfo urls world.inputs.environment registryNames
    replaceRegistryHost := envReplaceRegistryHostIdentity urls world.inputs.environment
    replaceRegistryHostHasAuth := envReplaceRegistryHostHasAuth urls world.inputs.environment
    minReleaseAge := envScalarIdentity world.inputs.environment
      [lit "NPM_CONFIG_MIN_RELEASE_AGE", lit "npm_config_min_release_age"]
    globalNpmrc := globalNpmrc
    referencedNpmrcVars := referencedNpmrcVars }

/-- The names that the probed npmrc files refer to. -/
def referencedNames (world : World) (files : List FileProbe) : List Str :=
  sortDedup ((files.filter fun probe =>
    probe.kind = .content ∧ fileName probe.path = some (lit ".npmrc")).flatMap fun probe =>
      referencedEnvNamesOf world probe.path)

/-- `environment_probe`. -/
def environmentProbe (world : World) (files : List FileProbe) (npmrcHasAuth : Bool)
    (globalNpmrc : Option PathBuf) : EnvironmentProbe :=
  let referencedNpmrcVars : List EnvironmentValueProbe :=
    if npmrcHasAuth then []
    else (referencedNames world files).map fun name =>
      { name := name, fingerprint := envValueFingerprint hashing world name }
  environmentProbeWith urls world globalNpmrc
    (referencedNpmrcVars.insertionSort fun left right => left.name ≤ right.name)

/-- `current_environment_probe`. -/
def currentEnvironmentProbe (world : World) (baseline : EnvironmentProbe) : EnvironmentProbe :=
  environmentProbeWith urls world (globalNpmrcPath world.inputs)
    (baseline.referencedNpmrcVars.map fun probe =>
      { name := probe.name, fingerprint := envValueFingerprint hashing world probe.name })

end Probes

/-! ### Building a manifest -/

section Build

variable {Url Config : Type} (hashing : Hashing) (urls : UrlApi Url) (configs : ConfigApi Config)

/-- `semantic_hash`, of what a value is serialized to. Objects are index maps: the crate is
locked with its feature `preserve_order`. -/
def semanticHash (value : Except String Json) : Except String UInt64 :=
  value.map fun json => hashing.bytes (hashing.toVec (canonicalJson true json))

/-- If the hash does not confuse the bytes of the two, values with one hash are equal up to the
order of members. -/
theorem semanticHash_eq_iff {floats : FloatText} (written : hashing.toVec = toVec floats)
    (a b : Value true)
    (distinguished : hashing.bytes (toVec floats a.canonical.json) =
        hashing.bytes (toVec floats b.canonical.json) →
      toVec floats a.canonical.json = toVec floats b.canonical.json) :
    semanticHash hashing (.ok a.json) = semanticHash hashing (.ok b.json) ↔
      a.json.Reordered b.json := by
  rw [← canonical_bytes_eq_iff floats]
  simp only [semanticHash, Except.map, Except.ok.injEq, written]
  exact ⟨distinguished, congrArg _⟩

def semanticFingerprint (inputs : Inputs) (path : PathBuf) (value : Except String Json) :
    Except String SemanticFingerprint :=
  (semanticHash hashing value).map fun hash => ⟨canonicalPath inputs path, hash⟩

/-- The fingerprints of the config files that have a path. -/
def configFingerprints (inputs : Inputs) : List ConfigFile →
    Except String (List SemanticFingerprint)
  | [] => .ok []
  | config :: files =>
      match config.path with
      | none => configFingerprints inputs files
      | some path => do
          let fingerprint ← semanticFingerprint hashing inputs path config.json
          return fingerprint :: (← configFingerprints inputs files)

/-- The paths of the external import maps, and the fingerprints of those that could be read. -/
def externalConfigFingerprints (inputs : Inputs) : List ConfigFile →
    Except String (List PathBuf × List SemanticFingerprint)
  | [] => .ok ([], [])
  | config :: files => do
      match ← config.importMapPath with
      | none => externalConfigFingerprints inputs files
      | some path =>
          match ← config.importMapValue inputs with
          | none =>
              let (paths, fingerprints) ← externalConfigFingerprints inputs files
              return (absolutePath inputs path :: paths, fingerprints)
          | some value =>
              let fingerprint ← semanticFingerprint hashing inputs path (.ok value)
              let (paths, fingerprints) ← externalConfigFingerprints inputs files
              return (absolutePath inputs path :: paths, fingerprint :: fingerprints)

/-- The fingerprints of the package files. -/
def packageFingerprints (inputs : Inputs) : List PackageJson →
    Except String (List SemanticFingerprint)
  | [] => .ok []
  | package :: packages => do
      let fingerprint ← semanticFingerprint hashing inputs package.path package.json
      return fingerprint :: (← packageFingerprints inputs packages)

/-- The worlds as the passes of `manifest_from_workspace` see them: each pass asks at its own
time. -/
structure Reads where
  semantic : Inputs
  files : World
  environment : World
  directories : World
  identity : Inputs

/-- What is known before anything is probed. -/
structure Semantics where
  configs : List SemanticFingerprint
  externalConfigPaths : List PathBuf
  externalConfigs : List SemanticFingerprint
  packages : List SemanticFingerprint
  members : List PathBuf
  links : List PathBuf
  lockfilePath : Option PathBuf
  lockfile : Option PathBuf
  lockfilePresent : Bool
  scopeDirs : List PathBuf

/-- The first pass of `manifest_from_workspace`: semantic values, and the directories to
probe. -/
def workspaceSemantics (inputs : Inputs) (initialCwd : PathBuf) (configStartPaths : List PathBuf)
    (dir : WorkspaceDirectory) : Except String Semantics := do
  let workspace := dir.workspace
  let configs := normalizeSemanticFingerprints
    (← configFingerprints hashing inputs workspace.resolverDenoJsons)
  let (externalConfigPaths, externalConfigs) ←
    externalConfigFingerprints hashing inputs workspace.resolverDenoJsons
  let externalConfigs := normalizeSemanticFingerprints externalConfigs
  let packages := normalizeSemanticFingerprints
    (← packageFingerprints hashing inputs (workspace.packageJsons ++ workspace.linkPkgJsons))
  let members := normalizePaths
    (workspace.configFolders.filterMap (Option.map (canonicalPath inputs)))
  let links := normalizePaths
    (workspace.linkFolders.filterMap (Option.map (canonicalPath inputs)))
  let lockfilePath ← workspace.lockfilePath
  let scopeDirs := normalizePaths
    ([dir.dirPath, workspace.rootDirPath] ++
      discoveryCandidateDirs inputs initialCwd configStartPaths ++ members ++ links ++
      (configs ++ externalConfigs ++ packages).filterMap fun entry => parent entry.path)
  return { configs, externalConfigPaths, externalConfigs, packages, members, links, lockfilePath
           lockfile := lockfilePath.map (canonicalPath inputs)
           lockfilePresent := lockfilePath.any fun path => inputs (.present path)
           scopeDirs }

/-- The candidates for a config or package file in a directory. -/
def manifestCandidateFileNames : List Str :=
  [lit "deno.json", lit "deno.jsonc", lit "package.json"]

/-- The files to probe, and how. -/
def probedFiles (semantics : Semantics) (npmrcPath globalNpmrc : Option PathBuf)
    (npmrcHasAuth : Bool) : List (PathBuf × FileProbeKind) :=
  let npmrcKind : FileProbeKind := if npmrcHasAuth then .metadata else .content
  (semantics.configs ++ semantics.packages).map (fun entry => (entry.path, .content)) ++
    semantics.externalConfigPaths.map (fun path => (path, .content)) ++
    semantics.scopeDirs.flatMap (fun dir =>
      manifestCandidateFileNames.map (fun name => (join dir [name], .content)) ++
        [(join dir [lit "package.json"], .content), (join dir [lit ".npmrc"], npmrcKind)]) ++
    npmrcPath.toList.map (fun path => (path, npmrcKind)) ++
    globalNpmrc.toList.map (fun path => (path, npmrcKind)) ++
    semantics.lockfilePath.toList.map fun path => (path, .content)

/-- The raw probe of `manifest_from_workspace`. -/
def rawProbe (reads : Reads) (semantics : Semantics) (npmrcHasAuth : Bool)
    (inputs : WorkspaceResolverInputs) : ResolverInputProbe :=
  let globalNpmrc := globalNpmrcPath reads.files.inputs
  let files := normalizeFileProbes
    ((probedFiles semantics inputs.npmrcPath globalNpmrc npmrcHasAuth).map fun file =>
      fileProbe hashing reads.files file.1 file.2)
  let byonmPaths := normalizePaths
    (if inputs.byonm then
      collectByonmNodeModulesPaths reads.directories.inputs semantics.scopeDirs ++
        inputs.nodeModulesPath.toList.map (absolutePath reads.directories.inputs)
    else [])
  { files := files
    byonmNodeModules := byonmPaths.map fun path =>
      { path := path
        fingerprint := currentDirectoryFingerprint hashing reads.directories path }
    managedRootNodeModules := inputs.managedRootPath.map fun path =>
      { path := absolutePath reads.directories.inputs path
        identity := canonicalPath reads.directories.inputs (absolutePath reads.directories.inputs path) }
    npmrcHasAuth := npmrcHasAuth
    environment := environmentProbe hashing urls reads.environment files npmrcHasAuth globalNpmrc }

/-- `manifest_from_workspace`. -/
def manifestFromWorkspace (initialCwd : PathBuf) (configStartPaths : List PathBuf)
    (dir : WorkspaceDirectory) (npmrc : ResolvedNpmRc Url Config)
    (inputs : WorkspaceResolverInputs) (reads : Reads) :
    Except String ResolverInputManifest := do
  let (npmrcIdentity, npmrcHasAuth) := npmConfigFingerprint urls configs npmrc
  let semantics ← workspaceSemantics hashing reads.semantic initialCwd configStartPaths dir
  return {
    identity := {
      initialCwd := canonicalPath reads.identity initialCwd
      workspaceRoot := canonicalPath reads.identity dir.workspace.rootDirPath
      discoveryDir := canonicalPath reads.identity dir.dirPath
      members := semantics.members
      links := semantics.links
      configs := semantics.configs
      externalConfigs := semantics.externalConfigs
      packages := semantics.packages
      npmrc := npmrcIdentity
      lockfile := semantics.lockfile
      lockfilePresent := semantics.lockfilePresent
      byonm := inputs.byonm }
    probe := rawProbe hashing urls reads semantics npmrcHasAuth inputs }

/-- `is_current`. Its passes over files, directories and environment ask at their own times,
like those of a build. -/
def isCurrent (manifest : ResolverInputManifest) (reads : Reads) : Bool :=
  if manifest.probe.files.any fun probe =>
      currentFileFingerprint hashing reads.files probe.path probe.kind ≠ probe.fingerprint then
    false
  else if manifest.probe.managedRootNodeModules.any fun probe =>
      canonicalPath reads.directories.inputs probe.path ≠ probe.identity then
    false
  else if manifest.probe.byonmNodeModules.any fun probe =>
      currentDirectoryFingerprint hashing reads.directories probe.path ≠ probe.fingerprint then
    false
  else
    currentEnvironmentProbe hashing urls reads.environment manifest.probe.environment =
      manifest.probe.environment

end Build

section Results

variable {Url Config : Type} {hashing : Hashing} {urls : UrlApi Url} {configs : ConfigApi Config}

/-! ### What a check compares -/

/-- The hashes tell the paths of two worlds apart, where they differ. -/
structure SeparatesPaths (hashing : Hashing) (world world' : World) : Prop where
  bytes : ∀ path bytes bytes', world.inputs (.read path) = some bytes →
    world'.inputs (.read path) = some bytes' → hashing.bytes bytes = hashing.bytes bytes' →
    bytes = bytes'
  path : ∀ path kind metadata metadata', world (.symlinkMetadata path) = some metadata →
    world' (.symlinkMetadata path) = some metadata' →
    hashing.path (pathState world path metadata (targetFingerprint hashing world path kind)) =
      hashing.path
        (pathState world' path metadata' (targetFingerprint hashing world' path kind)) →
    pathState world path metadata (targetFingerprint hashing world path kind) =
      pathState world' path metadata' (targetFingerprint hashing world' path kind)

/-- The hashes tell the variables of two worlds apart, where they differ. -/
def SeparatesValues (hashing : Hashing) (world world' : World) : Prop :=
  ∀ name value value', world.var name = some value → world'.var name = some value' →
    hashing.bytes (encodeUtf8 value) = hashing.bytes (encodeUtf8 value') → value = value'

variable {world world' : World}

/-- A path that was there and has the same fingerprint is in the same state. -/
theorem pathState_of_fingerprint (separates : SeparatesPaths hashing world world') {path : PathBuf}
    {kind : FileProbeKind} {metadata : Metadata}
    (hthere : world (.symlinkMetadata path) = some metadata)
    (h : currentFileFingerprint hashing world' path kind =
      currentFileFingerprint hashing world path kind) :
    ∃ metadata', world' (.symlinkMetadata path) = some metadata' ∧
      pathState world path metadata (targetFingerprint hashing world path kind) =
        pathState world' path metadata' (targetFingerprint hashing world' path kind) := by
  simp only [currentFileFingerprint, pathProbeFingerprint, hthere, Option.map_some] at h
  obtain ⟨metadata', hthere', heq⟩ := Option.map_eq_some_iff.mp h
  exact ⟨metadata', hthere',
    separates.path path kind metadata metadata' hthere hthere' (Prod.mk.inj heq).1.symm⟩

/-- The bytes behind equal fingerprints are equal. -/
theorem read_of_contentFingerprint (separates : SeparatesPaths hashing world world') {path : PathBuf}
    (h : contentFingerprint hashing world path = contentFingerprint hashing world' path) :
    world.inputs (.read path) = world'.inputs (.read path) := by
  cases hread : world.inputs (.read path) with
  | none =>
      rw [contentFingerprint, hread] at h
      exact (Option.map_eq_none_iff.mp h.symm).symm
  | some bytes =>
      rw [contentFingerprint, hread, Option.map_some] at h
      obtain ⟨bytes', hread', heq⟩ := Option.map_eq_some_iff.mp h.symm
      rw [hread', separates.bytes path bytes bytes' hread hread' (Prod.mk.inj heq).1.symm]

/-- A file probed by content has the same bytes if it has the same fingerprint. -/
theorem read_of_fingerprint (separates : SeparatesPaths hashing world world') {path : PathBuf}
    (hthere : (world (.symlinkMetadata path)).isSome)
    (h : currentFileFingerprint hashing world' path .content =
      currentFileFingerprint hashing world path .content) :
    world.inputs (.read path) = world'.inputs (.read path) := by
  obtain ⟨metadata, hmetadata⟩ := Option.isSome_iff_exists.mp hthere
  obtain ⟨metadata', -, hstate⟩ := pathState_of_fingerprint separates hmetadata h
  exact read_of_contentFingerprint separates (congrArg PathState.target hstate)

/-- Equal fingerprints of variables come from equal values. -/
theorem var_of_fingerprint (separates : SeparatesValues hashing world world') {name : Str}
    (h : envValueFingerprint hashing world name = envValueFingerprint hashing world' name) :
    world.var name = world'.var name := by
  cases hvar : world.var name with
  | none =>
      rw [envValueFingerprint, hvar] at h
      exact (Option.map_eq_none_iff.mp h.symm).symm
  | some value =>
      rw [envValueFingerprint, hvar, Option.map_some] at h
      obtain ⟨value', hvar', heq⟩ := Option.map_eq_some_iff.mp h.symm
      rw [hvar', separates name value value' hvar hvar' (Prod.mk.inj heq).1.symm]

/-- What it takes for a manifest to be current. -/
theorem isCurrent_inv {manifest : ResolverInputManifest} {reads : Reads}
    (h : isCurrent hashing urls manifest reads = true) :
    (∀ probe ∈ manifest.probe.files,
      currentFileFingerprint hashing reads.files probe.path probe.kind = probe.fingerprint) ∧
    (∀ probe ∈ manifest.probe.managedRootNodeModules,
      canonicalPath reads.directories.inputs probe.path = probe.identity) ∧
    (∀ probe ∈ manifest.probe.byonmNodeModules,
      currentDirectoryFingerprint hashing reads.directories probe.path = probe.fingerprint) ∧
    currentEnvironmentProbe hashing urls reads.environment manifest.probe.environment =
      manifest.probe.environment := by
  rw [isCurrent] at h
  split at h
  · cases h
  rename_i hfiles
  split at h
  · cases h
  rename_i hroot
  split at h
  · cases h
  rename_i hdirectories
  refine ⟨fun probe mem => ?_, fun probe mem => ?_, fun probe mem => ?_, of_decide_eq_true h⟩
  · by_contra hne
    exact hfiles (List.any_eq_true.mpr ⟨probe, mem, decide_eq_true hne⟩)
  · by_contra hne
    rw [Option.mem_def.mp mem] at hroot
    exact hroot (decide_eq_true hne)
  · by_contra hne
    exact hdirectories (List.any_eq_true.mpr ⟨probe, mem, decide_eq_true hne⟩)

/-- What a manifest that was built consists of. -/
theorem manifestFromWorkspace_inv {initialCwd : PathBuf} {configStartPaths : List PathBuf}
    {dir : WorkspaceDirectory} {npmrc : ResolvedNpmRc Url Config}
    {inputs : WorkspaceResolverInputs} {reads : Reads} {manifest : ResolverInputManifest}
    (h : manifestFromWorkspace hashing urls configs initialCwd configStartPaths dir npmrc inputs
      reads = .ok manifest) :
    ∃ semantics,
      workspaceSemantics hashing reads.semantic initialCwd configStartPaths dir = .ok semantics ∧
      manifest.probe = rawProbe hashing urls reads semantics
        (npmConfigFingerprint urls configs npmrc).2 inputs := by
  rw [manifestFromWorkspace] at h
  cases hsemantics :
      workspaceSemantics hashing reads.semantic initialCwd configStartPaths dir with
  | error e =>
      simp only [hsemantics] at h
      cases h
  | ok semantics =>
      simp only [hsemantics] at h
      injection h with h
      exact ⟨semantics, rfl, by rw [← h]⟩

/-- The identity depends on what the passes read that make it. -/
theorem manifestFromWorkspace_identity {initialCwd : PathBuf} {configStartPaths : List PathBuf}
    {dir : WorkspaceDirectory} {npmrc : ResolvedNpmRc Url Config}
    {inputs : WorkspaceResolverInputs} {reads reads' : Reads} {manifest : ResolverInputManifest}
    (h : manifestFromWorkspace hashing urls configs initialCwd configStartPaths dir npmrc inputs
      reads = .ok manifest)
    (semantic : reads'.semantic = reads.semantic) (identity : reads'.identity = reads.identity) :
    ∃ manifest', manifestFromWorkspace hashing urls configs initialCwd configStartPaths dir npmrc
        inputs reads' = .ok manifest' ∧ manifest'.identity = manifest.identity := by
  rw [manifestFromWorkspace] at h ⊢
  rw [semantic, identity]
  cases hsemantics :
      workspaceSemantics hashing reads.semantic initialCwd configStartPaths dir with
  | error e =>
      simp only [hsemantics] at h
      cases h
  | ok semantics =>
      simp only [hsemantics] at h ⊢
      injection h with h
      exact ⟨_, rfl, by rw [← h]⟩

/-! ### The variables npmrc files refer to -/

/-- A probe of an npmrc file by content. -/
def IsNpmrcProbe (probe : FileProbe) : Prop :=
  probe.kind = .content ∧ fileName probe.path = some (lit ".npmrc")

variable {files : List FileProbe} {globalNpmrc globalNpmrc' : Option PathBuf} {probe : FileProbe}
  {text name : Str}

/-- The variables of an environment probe are the names that were found, with the
fingerprints of their values. -/
theorem mem_referencedNpmrcVars (value : EnvironmentValueProbe) :
    value ∈ (environmentProbe hashing urls world files false globalNpmrc).referencedNpmrcVars ↔
      value.name ∈ referencedNames world files ∧
        value.fingerprint = envValueFingerprint hashing world value.name := by
  simp only [environmentProbe, environmentProbeWith, Bool.false_eq_true, if_false,
    List.mem_insertionSort, List.mem_map]
  constructor
  · rintro ⟨name, hname, rfl⟩
    exact ⟨hname, rfl⟩
  · rintro ⟨hname, hvalue⟩
    exact ⟨value.name, hname, by rw [← hvalue]⟩

theorem mem_referencedNames (mem : probe ∈ files) (hprobe : IsNpmrcProbe probe)
    (hread : world.inputs (.read probe.path) = some (encodeUtf8 text))
    (h : name ∈ referencedEnvNames text) : name ∈ referencedNames world files := by
  refine mem_sortDedup_of_mem (List.mem_flatMap.mpr ⟨probe, ?_, ?_⟩)
  · exact List.mem_filter.mpr ⟨mem, decide_eq_true hprobe⟩
  · rw [referencedEnvNamesOf, hread, Option.bind_some, decodeUtf8_encodeUtf8]
    exact h

/-- Environments that give a name that was found different values have different probes. -/
theorem environmentProbe_ne (mem : probe ∈ files) (hprobe : IsNpmrcProbe probe)
    (hread : world.inputs (.read probe.path) = some (encodeUtf8 text))
    (h : name ∈ referencedEnvNames text)
    (hne : envValueFingerprint hashing world name ≠ envValueFingerprint hashing world' name) :
    environmentProbe hashing urls world files false globalNpmrc ≠
      environmentProbe hashing urls world' files false globalNpmrc' := by
  intro heq
  have hmem : ⟨name, envValueFingerprint hashing world name⟩ ∈
      (environmentProbe hashing urls world files false globalNpmrc).referencedNpmrcVars :=
    (mem_referencedNpmrcVars _).mpr ⟨mem_referencedNames mem hprobe hread h, rfl⟩
  rw [heq] at hmem
  exact hne ((mem_referencedNpmrcVars _).mp hmem).2

/-- A probe of a file holds the fingerprint that the file had. -/
theorem mem_rawProbe_files {reads : Reads} {semantics : Semantics} {npmrcHasAuth : Bool}
    {inputs : WorkspaceResolverInputs}
    (h : probe ∈ (rawProbe hashing urls reads semantics npmrcHasAuth inputs).files) :
    probe.fingerprint = currentFileFingerprint hashing reads.files probe.path probe.kind := by
  have hsorted := (List.destutter_sublist _ _).subset h
  obtain ⟨file, -, rfl⟩ := List.mem_map.mp ((List.mem_insertionSort _).mp hsorted)
  rfl

/-- A current manifest was built with the same values of all names that were found. -/
theorem var_of_isCurrent {manifest : ResolverInputManifest} {reads reads' : Reads}
    {semantics : Semantics} {inputs : WorkspaceResolverInputs}
    (hprobe : manifest.probe = rawProbe hashing urls reads semantics false inputs)
    (hcurrent : isCurrent hashing urls manifest reads' = true)
    (separates : SeparatesValues hashing reads.environment reads'.environment)
    (h : name ∈ referencedNames reads.environment manifest.probe.files) :
    reads.environment.var name = reads'.environment.var name := by
  have henv := (isCurrent_inv hcurrent).2.2.2
  have hmem : ⟨name, envValueFingerprint hashing reads.environment name⟩ ∈
      manifest.probe.environment.referencedNpmrcVars := by
    rw [hprobe] at h ⊢
    exact (mem_referencedNpmrcVars _).mpr ⟨h, rfl⟩
  have hvars := congrArg EnvironmentProbe.referencedNpmrcVars henv
  have hsame := List.map_inj_left.mp (hvars.trans (List.map_id _).symm) _ hmem
  exact var_of_fingerprint separates (congrArg EnvironmentValueProbe.fingerprint hsame).symm

/-! ### When nothing changed -/

/-- What is probed of a file. -/
def FileProbe.target (probe : FileProbe) : PathBuf × FileProbeKind := (probe.path, probe.kind)

theorem target_mem_destutter' {target : PathBuf × FileProbeKind} {probes : List FileProbe} :
    ∀ {first : FileProbe}, target ∈ (first :: probes).map FileProbe.target →
      target ∈ (probes.destutter' (fun a b => ¬ (a.path = b.path ∧ a.kind = b.kind)) first).map
        FileProbe.target := by
  induction probes with
  | nil => exact fun h => h
  | cons next probes ih =>
      intro first h
      rw [List.destutter'_cons]
      split
      · rcases List.mem_cons.mp h with rfl | h
        · exact List.mem_cons_self
        · exact List.mem_cons_of_mem _ (ih h)
      · rename_i heq
        have hsame : first.target = next.target :=
          Prod.ext (not_not.mp heq).1 (not_not.mp heq).2
        refine ih ?_
        rw [List.map_cons, List.map_cons, ← hsame] at h
        rcases List.mem_cons.mp h with rfl | h
        · exact List.mem_cons_self
        · exact h

/-- Normalizing loses nothing but repetitions. -/
theorem target_mem_normalizeFileProbes {probes : List FileProbe} (h : probe ∈ probes) :
    probe.target ∈ (normalizeFileProbes probes).map FileProbe.target := by
  rw [normalizeFileProbes]
  have hmem := (List.mem_insertionSort (l := probes) fun a b : FileProbe =>
    a.path < b.path ∨ a.path = b.path ∧ a.kind.rank ≤ b.kind.rank).mpr h
  generalize probes.insertionSort (fun a b : FileProbe =>
    a.path < b.path ∨ a.path = b.path ∧ a.kind.rank ≤ b.kind.rank) = sorted at hmem
  cases sorted with
  | nil => exact absurd hmem List.not_mem_nil
  | cons first rest => exact target_mem_destutter' (List.mem_map_of_mem hmem)

/-- The files that are probed by a manifest. -/
theorem path_mem_rawProbe {reads : Reads} {semantics : Semantics} {npmrcHasAuth : Bool}
    {inputs : WorkspaceResolverInputs} (file : PathBuf × FileProbeKind)
    (h : file ∈ probedFiles semantics inputs.npmrcPath (globalNpmrcPath reads.files.inputs)
      npmrcHasAuth) :
    absolutePath reads.files.inputs file.1 ∈
      (rawProbe hashing urls reads semantics npmrcHasAuth inputs).files.map FileProbe.path := by
  have hmem := target_mem_normalizeFileProbes
    (List.mem_map_of_mem (f := fun file => fileProbe hashing reads.files file.1 file.2) h)
  obtain ⟨kept, hkept, htarget⟩ := List.mem_map.mp hmem
  exact List.mem_map.mpr ⟨kept, hkept, congrArg Prod.fst htarget⟩

/-- Without credentials every file is probed by its content. -/
theorem kind_of_rawProbe {reads : Reads} {semantics : Semantics}
    {inputs : WorkspaceResolverInputs}
    (h : probe ∈ (rawProbe hashing urls reads semantics false inputs).files) :
    probe.kind = .content := by
  have hsorted := (List.destutter_sublist _ _).subset h
  obtain ⟨file, hfile, rfl⟩ := List.mem_map.mp ((List.mem_insertionSort _).mp hsorted)
  show file.2 = .content
  simp only [probedFiles, Bool.false_eq_true, if_false, List.mem_append, List.mem_map,
    List.mem_flatMap] at hfile
  rcases hfile with ((((⟨_, -, rfl⟩ | ⟨_, -, rfl⟩) | ⟨_, -, hdir⟩) | ⟨_, -, rfl⟩) |
    ⟨_, -, rfl⟩) | ⟨_, -, rfl⟩
  · rfl
  · rfl
  · rcases hdir with ⟨_, -, rfl⟩ | hdir
    · rfl
    · simp only [List.mem_cons, List.not_mem_nil, or_false] at hdir
      rcases hdir with rfl | rfl
      · rfl
      · rfl
  · rfl
  · rfl
  · rfl

theorem currentEnvironmentProbe_built (files : List FileProbe) (npmrcHasAuth : Bool) :
    currentEnvironmentProbe hashing urls world
        (environmentProbe hashing urls world files npmrcHasAuth
          (globalNpmrcPath world.inputs)) =
      environmentProbe hashing urls world files npmrcHasAuth (globalNpmrcPath world.inputs) := by
  rw [environmentProbe, currentEnvironmentProbe]
  refine congrArg (environmentProbeWith urls world (globalNpmrcPath world.inputs)) ?_
  refine (List.map_inj_left.mpr fun value mem => ?_).trans (List.map_id _)
  have hmem := (List.mem_insertionSort _).mp mem
  split at hmem
  · exact absurd hmem List.not_mem_nil
  · obtain ⟨name, -, rfl⟩ := List.mem_map.mp hmem
    rfl

/-- **No false alarm**: a manifest is current in the world it was probed in. -/
theorem isCurrent_unchanged {manifest : ResolverInputManifest} {semantics : Semantics}
    {npmrcHasAuth : Bool} {inputs : WorkspaceResolverInputs} {semantic identity : Inputs}
    (hprobe : manifest.probe = rawProbe hashing urls ⟨semantic, world, world, world, identity⟩
      semantics npmrcHasAuth inputs) {reads : Reads} (files : reads.files = world)
    (environment : reads.environment = world) (directories : reads.directories = world) :
    isCurrent hashing urls manifest reads = true := by
  rw [isCurrent, files, environment, directories, if_neg, if_neg, if_neg]
  · rw [hprobe]
    exact decide_eq_true (currentEnvironmentProbe_built _ npmrcHasAuth)
  · rw [hprobe, List.any_eq_true]
    rintro ⟨probe, mem, hne⟩
    obtain ⟨path, -, rfl⟩ := List.mem_map.mp mem
    exact of_decide_eq_true hne rfl
  · rw [hprobe]
    intro hne
    cases hroot : inputs.managedRootPath with
    | none => simp [rawProbe, hroot] at hne
    | some path => simp [rawProbe, hroot] at hne
  · rw [List.any_eq_true]
    rintro ⟨probe, mem, hne⟩
    rw [hprobe] at mem
    exact of_decide_eq_true hne (mem_rawProbe_files mem).symm

/-! ### The references of an npmrc -/

/-- The environment variables an npmrc text refers to are all found, and so no change of one
of them is missed. `expand` is what npm makes of the text. -/
structure ReferencesFound (hashing : Hashing) (urls : UrlApi Url) (configs : ConfigApi Config)
    (expand : Str → (Str → Option Str) → Str) (text : Str) : Prop where
  found : ∀ name, Referenced text name → name ∈ referencedEnvNames text
  probed : ∀ (files : List FileProbe) (probe : FileProbe) (world world' : World)
    (globalNpmrc globalNpmrc' : Option PathBuf) (name value value' : Str),
    probe ∈ files → IsNpmrcProbe probe →
    world.inputs (.read probe.path) = some (encodeUtf8 text) →
    world'.inputs (.read probe.path) = some (encodeUtf8 text) →
    Referenced text name → world.var name = some value → world'.var name = some value' →
    value ≠ value' → hashing.bytes (encodeUtf8 value) ≠ hashing.bytes (encodeUtf8 value') →
    environmentProbe hashing urls world files false globalNpmrc ≠
      environmentProbe hashing urls world' files false globalNpmrc'
  current : ∀ (initialCwd : PathBuf) (configStartPaths : List PathBuf)
    (dir : WorkspaceDirectory) (npmrc : ResolvedNpmRc Url Config)
    (inputs : WorkspaceResolverInputs) (reads reads' : Reads) (manifest : ResolverInputManifest)
    (probe : FileProbe),
    manifestFromWorkspace hashing urls configs initialCwd configStartPaths dir npmrc inputs
      reads = .ok manifest →
    manifest.probe.npmrcHasAuth = false → probe ∈ manifest.probe.files → IsNpmrcProbe probe →
    reads.files.inputs (.read probe.path) = some (encodeUtf8 text) →
    reads.environment.inputs (.read probe.path) = some (encodeUtf8 text) →
    (reads.files (.symlinkMetadata probe.path)).isSome →
    SeparatesPaths hashing reads.files reads'.files →
    SeparatesValues hashing reads.environment reads'.environment →
    isCurrent hashing urls manifest reads' = true →
    reads'.files.inputs (.read probe.path) = some (encodeUtf8 text) ∧
      expand text reads.environment.var = expand text reads'.environment.var

/-- All references of an npmrc text are found, and no change of one of them is missed, exactly
where none of them is only ever swallowed by an opening in front of it. -/
theorem referencesFound_iff {expand : Str → (Str → Option Str) → Str}
    (hexpand : ∀ text vars vars', (∀ name, Referenced text name → vars name = vars' name) →
      expand text vars = expand text vars') (text : Str) :
    ReferencesFound hashing urls configs expand text ↔
      ∀ name, Referenced text name → Visible text name := by
  constructor
  · intro h name hname
    exact mem_referencedEnvNames.mp (h.found name hname)
  · intro visible
    have found : ∀ name, Referenced text name → name ∈ referencedEnvNames text :=
      fun name hname => mem_referencedEnvNames.mpr (visible name hname)
    refine { found := found, probed := ?_, current := ?_ }
    · intro files probe world world' globalNpmrc globalNpmrc' name value value' mem hprobe hread
        hread' hname hvalue hvalue' _ hhash
      refine environmentProbe_ne mem hprobe hread (found name hname) fun heq => hhash ?_
      rw [envValueFingerprint, envValueFingerprint, hvalue, hvalue'] at heq
      exact (Prod.mk.inj (Option.some.inj heq)).1
    · intro initialCwd configStartPaths dir npmrc inputs reads reads' manifest probe hbuilt hauth
        mem hprobe hfiles henv hthere separates separates' hcurrent
      obtain ⟨semantics, -, hraw⟩ := manifestFromWorkspace_inv hbuilt
      have hnoAuth : (npmConfigFingerprint urls configs npmrc).2 = false := by
        rw [hraw] at hauth
        exact hauth
      rw [hnoAuth] at hraw
      refine ⟨?_, hexpand text _ _ fun name hname => ?_⟩
      · have hsame := (isCurrent_inv hcurrent).1 probe mem
        rw [hraw] at mem
        rw [mem_rawProbe_files mem, hprobe.1] at hsame
        rw [← read_of_fingerprint separates hthere hsame, hfiles]
      · exact var_of_isCurrent hraw hcurrent separates'
          (mem_referencedNames mem hprobe henv (found name hname))

end Results

/-- A text that is nothing but references, expanded. -/
def expandNames (text : Str) (vars : Str → Option Str) : Str :=
  (referencedEnvNames text).flatMap fun name => (vars name).getD []

theorem expandNames_congr (text : Str) (vars vars' : Str → Option Str)
    (h : ∀ name, Referenced text name → vars name = vars' name) :
    expandNames text vars = expandNames text vars' := by
  have hsame : ∀ name ∈ referencedEnvNames text, (vars name).getD [] = (vars' name).getD [] := by
    intro name mem
    obtain ⟨valid, before, after, htext, -⟩ := mem_referencedEnvNames.mp mem
    rw [h name ⟨valid, before, after, htext⟩]
  rw [expandNames, expandNames, List.flatMap_eq_foldl, List.flatMap_eq_foldl]
  exact List.foldl_ext _ _ _ fun acc name mem => congrArg (acc ++ ·) (hsame name mem)

/-- Hashes that are lengths. -/
def lengthHashing : Hashing where
  bytes bytes := UInt64.ofNat bytes.length
  path state := state.len
  toVec _ := []

theorem referencesFound_iff_single :
    ReferencesFound lengthHashing plainUrls tokens expandNames (reference (lit "NPM_TOKEN")) ↔
      ∀ name, Referenced (reference (lit "NPM_TOKEN")) name →
        Visible (reference (lit "NPM_TOKEN")) name :=
  referencesFound_iff expandNames_congr _

/-- `$`-brace, `a`, and a reference to `B`: the first opening takes the brace of the
reference. -/
def swallowing : Str := opening ++ ('a' :: reference (lit "B"))

theorem referencesFound_swallowing :
    ¬ ReferencesFound lengthHashing plainUrls tokens expandNames swallowing := by
  intro h
  have hopen : splitOnceText opening swallowing = some ([], 'a' :: reference (lit "B")) := by
    decide
  have hclose : splitOnce '\x7d' ('a' :: reference (lit "B")) =
      some ('a' :: (opening ++ lit "B"), []) := by
    decide
  have hreferenced : Referenced swallowing (lit "B") :=
    ⟨⟨by decide, by decide, by decide, by decide, by decide⟩, opening ++ ['a'], [], by decide⟩
  have hvisible := mem_referencedEnvNames.mp (h.found (lit "B") hreferenced)
  rcases hvisible.turn hopen hclose with hname | ⟨-, before, after, hnil, -⟩
  · exact absurd hname (by decide)
  · have hlength := congrArg List.length hnil
    simp only [reference, opening, List.length_append, List.length_cons, List.length_nil] at hlength
    omega

end Libdeno.NpmCache
