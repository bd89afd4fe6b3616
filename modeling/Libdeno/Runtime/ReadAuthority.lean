import Libdeno.Io
import Libdeno.Library.Hoare
import Libdeno.Library.LexicalPath

/-!
# Libdeno.Runtime.ReadAuthority

Who lets the runtime read a file on behalf of a script (node_loader.rs,
runtime_guards/require.rs, module_loader.rs): the CJS analysis, `require` and its ops, and the
loads of modules, which reach files that no check of the upstream runtime covers.

The file system, the permissions and the broker answer every call anew (`Host`), so that links
may be moved, and permissions revoked, between any two of them. What a run has asked and what it
has touched is its history (`Event`).

With a broker, whatever is touched is what the broker opened for the same container just before;
without one, it may also be covered by a grant of all reads, or be a file of an npm package under
the name it resolves to (`reads_authorised`).
-/

namespace Libdeno.Runtime.ReadAuthority

open Hoare

/-! ### The host -/

abbrev Path := String

/-- A permissions container: every run and every worker has its own. -/
abbrev Container := Nat

/-- `ModuleSpecifier`: one that `to_file_path` makes a path, or another. -/
inductive Specifier
  | file (path : Path)
  | other (url : String)
  deriving Repr, DecidableEq

/-- Its URL. -/
def Specifier.text : Specifier → String
  | .file path => "file://" ++ path
  | .other url => url

/-- What the crates and the system answer, some of it at a time. `in_npm_package` is a test of a
URL's beginning, so that only a file can pass it. -/
structure Host where
  brokerInstalled : Bool
  inNpmPackage : Path → Bool
  /-- What an `npm:` reference is resolved to; any other specifier has none. -/
  resolveNpm : Nat → Specifier → Option (Except String Specifier)
  canonicalize : Nat → Path → Option Path
  queryReadAll : Nat → Container → Bool
  checkOpen : Nat → Container → Path → String → Except String Path
  readToString : Nat → Path → Except IoError String
  /-- The ops of `require`, as they were before they were guarded. -/
  original : Nat → Path → Except String String

/-- The ops of `require` that are guarded. -/
inductive RequireOp
  | stat
  | realPath
  | packageImports
  | packageScope
  deriving Repr, DecidableEq

/-- What was asked and answered, and what was touched. -/
inductive Event
  | canonicalized (asked : Path) (found : Option Path)
  /-- `query_read_all` said yes. -/
  | readAll (container : Container)
  /-- `check_open` said yes. -/
  | checked (container : Container) (api : String) (asked opened : Path)
  | reads (path : Path)
  | delegates (op : RequireOp) (path : Path)
  /-- The upstream module loader loads, and reads a file of a package as it is. -/
  | loads (dynamic : Bool) (specifier : Specifier)
  deriving Repr, DecidableEq

/-- The history, the last event first. -/
structure World where
  time : Nat
  events : List Event
  deriving Repr, DecidableEq

abbrev Sys (α : Type) := Program Empty World α

/-! ### The calls -/

/-- A call that is answered, and what is remembered of it. -/
def call {α : Type} (answer : Nat → α) (event : α → Option Event) : Sys α := do
  let w ← get
  set { time := w.time + 1, events := (event (answer w.time)).toList ++ w.events : World }
  return answer w.time

namespace Host

variable (host : Host)

/-- `std::fs::canonicalize(path).unwrap_or(path)`. -/
def canonicalizeOr (path : Path) : Sys Path := do
  let found ← call (host.canonicalize · path) fun found => some (.canonicalized path found)
  return found.getD path

/-- `!is_installed() && permissions.query_read_all()`. -/
def readsAll (container : Container) : Sys Bool :=
  if host.brokerInstalled then return false
  else
    call (host.queryReadAll · container) fun yes =>
      if yes then some (.readAll container) else none

/-- `permissions.check_open(path, OpenAccessKind::Read, api)`. -/
def openRead (container : Container) (path : Path) (api : String) : Sys (Except String Path) :=
  call (host.checkOpen · container path api) fun
    | .ok opened => some (.checked container api path opened)
    | .error _ => none

def read (path : Path) : Sys (Except IoError String) :=
  call (host.readToString · path) fun _ => some (.reads path)

def delegate (op : RequireOp) (path : Path) : Sys (Except String String) :=
  call (host.original · path) fun _ => some (.delegates op path)

/-! ### The CJS analysis -/

/-- `FsCjsAnalysisSourceProvider::load_source`. -/
def loadSource (container : Container) : Specifier → Sys (Option String)
  | .other _ => return none
  | .file path => do
      let canonical ← host.canonicalizeOr path
      if ← host.readsAll container then return (← host.read canonical).toOption
      else if host.inNpmPackage canonical && !host.brokerInstalled then
        return (← host.read canonical).toOption
      else
        match ← host.openRead container canonical "CJS analysis" with
        | .error _ => return none
        | .ok opened => return (← host.read opened).toOption

/-! ### `require` -/

/-- `ensure_read_permission`. -/
def ensureReadPermission (container : Container) (path : Path) : Sys (Except String Path) := do
  if ← host.readsAll container then return .ok path
  else
    let canonical ← host.canonicalizeOr path
    if host.inNpmPackage canonical && !host.brokerInstalled then return .ok canonical
    else host.openRead container canonical "require"

def failedToRead (path : Path) : Except IoError String → Except String String
  | .ok text => .ok text
  | .error error => .error s!"Failed to read {path.quote}: {error.message}"

/-- `load_text_file_lossy`. -/
def loadTextFileLossy (container : Container) (path : Path) : Sys (Except String String) :=
  if host.brokerInstalled then do
    let canonical ← host.canonicalizeOr path
    match ← host.openRead container canonical "require" with
    | .error error => return .error error
    | .ok opened => return failedToRead opened (← host.read opened)
  else return failedToRead path (← host.read path)

/-- `op_require_read_file` of deno_node, which asks for the path and loads it. -/
def requireReadFile (container : Container) (path : Path) : Sys (Except String String) := do
  match ← host.ensureReadPermission container path with
  | .error error => return .error error
  | .ok path => host.loadTextFileLossy container path

/-! ### The guards of the ops of `require` -/

/-- `checked_path`. -/
def checkedPath (container : Container) (path : Path) : Sys (Except String Path) := do
  let canonical ← host.canonicalizeOr path
  host.openRead container canonical "require"

/-- A guard: the original op, with the path that was checked. -/
def guardOp (op : RequireOp) (container : Container) (path : Path) :
    Sys (Except String String) :=
  if host.brokerInstalled then do
    match ← host.checkedPath container path with
    | .error error => return .error error
    | .ok checked => host.delegate op checked
  else host.delegate op path

/-- `op_require_stat_guard`. -/
def opRequireStatGuard : Container → Path → Sys (Except String String) := host.guardOp .stat

/-- `op_require_real_path_guard`. -/
def opRequireRealPathGuard : Container → Path → Sys (Except String String) :=
  host.guardOp .realPath

/-- `op_require_package_imports_guard`, whose path is that of the referrer. -/
def opRequirePackageImportsGuard : Container → Path → Sys (Except String String) :=
  host.guardOp .packageImports

/-- `Path::file_name`. -/
def fileName (path : Path) : Option String :=
  match (LexicalPath.unix.components path.toList).getLast? with
  | some (.normal name) => some (String.ofList name)
  | _ => none

/-- `op_require_package_scope_guard`; the package is read by `load_package_json`. -/
def opRequirePackageScopeGuard (container : Container) (path : Path) :
    Sys (Except String (Option String)) :=
  if !host.brokerInstalled then return (← host.delegate .packageScope path).map some
  else if fileName path ≠ some "package.json" then return .ok none
  else do
    match ← host.checkedPath container path with
    | .error error => return .error error
    | .ok checked => return .ok (← host.read checked).toOption

/-! ### Modules -/

/-- `check_dynamic_import_read`. -/
def checkDynamicImportRead (container : Container) : Specifier → Sys (Except String Unit)
  | .other _ => return .ok ()
  | .file path =>
      if host.inNpmPackage path then return .ok ()
      else do
        if ← host.readsAll container then return .ok ()
        else return (← host.openRead container path "import").map fun _ => ()

/-- `check_npm_source_read`. -/
def checkNpmSourceRead (container : Container) : Specifier → Sys (Except String Specifier)
  | .other url => return .ok (.other url)
  | .file path =>
      if !host.brokerInstalled || !host.inNpmPackage path then return .ok (.file path)
      else do
        let canonical ← host.canonicalizeOr path
        match ← host.openRead container canonical "import" with
        | .error error => return .error error
        | .ok opened =>
            if opened.startsWith "/" then return .ok (.file opened)
            else return .error s!"Invalid npm module path: {(Specifier.file path).text}"

/-- `GraphModuleLoader::load`, up to the upstream loader. -/
def load (container : Container) (requested : Specifier) (dynamic : Bool) :
    Sys (Except String Unit) := do
  match ← call (host.resolveNpm · requested) fun _ => none with
  | some (.error error) => return .error s!"Cannot resolve \"{requested.text}\": {error}"
  | some (.ok specifier) => loadResolved specifier
  | none => loadResolved requested
where
  loadResolved (specifier : Specifier) : Sys (Except String Unit) :=
    attempt (if dynamic then host.checkDynamicImportRead container specifier else return .ok ())
      (return ()) fun () =>
    attempt (host.checkNpmSourceRead container specifier) (return ()) fun specifier =>
    call (fun _ => .ok ()) fun _ => some (.loads dynamic specifier)

end Host

/-! ### Authority -/

section Authority

variable (host : Host) (container : Container)

/-- The container has just opened this path. -/
def Opened (last : Option Event) (path : Path) : Prop :=
  ∃ api asked, last = some (.checked container api asked path)

/-- There is no broker, and all reads are granted. -/
def AllGranted (last : Option Event) : Prop :=
  host.brokerInstalled = false ∧ last = some (.readAll container)

/-- There is no broker, and this is what a path has just been resolved to, or the path itself
where it is resolved to nothing, and the name of a package's file. -/
def PackageFile (last : Option Event) (path : Path) : Prop :=
  host.brokerInstalled = false ∧ host.inNpmPackage path = true ∧
    ∃ asked found, last = some (.canonicalized asked found) ∧ path = found.getD asked

/-- What has to be known just before an event. -/
def Grants (last : Option Event) : Event → Prop
  | .reads path => Opened container last path ∨ AllGranted host container last ∨
      PackageFile host last path
  | .delegates _ path => host.brokerInstalled = true → Opened container last path
  | .loads dynamic (.file path) =>
      (host.brokerInstalled = true → host.inNpmPackage path = true →
        Opened container last path) ∧
      (dynamic = true → host.inNpmPackage path = false →
        AllGranted host container last ∨ ∃ asked opened,
          last = some (.checked container "import" asked opened) ∧
            (path = asked ∨ path = opened))
  | _ => True

/-- Every event of a history has its grant. -/
def Authorised : List Event → Prop
  | [] => True
  | event :: before => Grants host container before.head? event ∧ Authorised before

end Authority

variable {host : Host} {container : Container} {α : Type}

/-- No program gives up. -/
def Never (e : Empty) : Prop := nomatch e

/-- The history is in order, and its last event is known. -/
def Known (host : Host) (container : Container) (last : Option Event → Prop) (w : World) : Prop :=
  Authorised host container w.events ∧ last w.events.head?

/-- The history is in order. -/
abbrev Orderly (host : Host) (container : Container) : World → Prop :=
  Known host container fun _ => True

theorem Known.orderly {last : Option Event → Prop} {w : World} (h : Known host container last w) :
    Orderly host container w := ⟨h.1, trivial⟩

/-! ### The calls -/

theorem call_spec {answer : Nat → α} {event : α → Option Event} {last : Option Event → Prop}
    {Q : α → World → Prop}
    (next : ∀ w, Known host container last w →
      Q (answer w.time)
        { time := w.time + 1, events := (event (answer w.time)).toList ++ w.events }) :
    Ensures Never (Known host container last) (call answer event) Q :=
  fun w hw => next w hw

/-- A call of which an event is remembered that needs no grant. -/
theorem asks_spec {answer : Nat → α} {event : α → Option Event}
    (free : ∀ value e last, event value = some e → Grants host container last e) :
    Ensures Never (Orderly host container) (call answer event) fun value =>
      Known host container fun last => ∀ e, event value = some e → last = some e := by
  refine call_spec fun w hw => ?_
  cases hevent : event (answer w.time) with
  | none => exact ⟨hw.1, nofun⟩
  | some e => exact ⟨⟨free _ e _ hevent, hw.1⟩, fun _ heq => heq ▸ rfl⟩

/-- A call that touches something. -/
theorem touch_spec {answer : Nat → α} {event : Event} {last : Option Event → Prop}
    (granted : ∀ l, last l → Grants host container l event) :
    Ensures Never (Known host container last) (call answer fun _ => some event)
      fun _ => Orderly host container :=
  call_spec fun _ hw => ⟨⟨granted _ hw.2, hw.1⟩, trivial⟩

theorem canonicalizeOr_spec (path : Path) :
    Ensures Never (Orderly host container) (host.canonicalizeOr path) fun canonical =>
      Known host container fun last => ∃ asked found,
        last = some (.canonicalized asked found) ∧ canonical = found.getD asked := by
  refine (asks_spec fun _ e _ heq => ?_).bind fun found => .pure fun w hw => ?_
  · cases heq
    trivial
  · exact ⟨hw.1, path, found, hw.2 _ rfl, rfl⟩

theorem readsAll_spec {last : Option Event → Prop} :
    Ensures Never (Known host container last) (host.readsAll container) fun yes =>
      Known host container fun l => if yes then AllGranted host container l else last l := by
  unfold Host.readsAll
  refine .ite (fun hbroker => .pure fun w hw => hw) fun hbroker => call_spec fun w hw => ?_
  cases host.queryReadAll w.time container with
  | false => exact hw
  | true => exact ⟨⟨trivial, hw.1⟩, Bool.eq_false_iff.mpr hbroker, rfl⟩

theorem openRead_spec (path : Path) (api : String) :
    Ensures Never (Orderly host container) (host.openRead container path api) fun answer =>
      Known host container fun last => ∀ opened, answer = .ok opened →
        last = some (.checked container api path opened) := by
  refine (asks_spec fun answer e _ heq => ?_).weaken fun answer w hw => ⟨hw.1, ?_⟩
  · cases answer with
    | error error => cases heq
    | ok opened =>
        cases heq
        trivial
  · rintro opened rfl
    exact hw.2 _ rfl

/-- A path is read, with a grant for it. -/
theorem read_spec {path : Path} {last : Option Event → Prop}
    (granted : ∀ l, last l → Opened container l path ∨ AllGranted host container l ∨
      PackageFile host l path) :
    Ensures Never (Known host container last) (host.read path) fun _ => Orderly host container :=
  touch_spec granted

/-! ### The operations -/

/-- `in_npm_package && !broker_installed`. -/
theorem exempt_of {path : Path} (h : (host.inNpmPackage path && !host.brokerInstalled) = true) :
    host.brokerInstalled = false ∧ host.inNpmPackage path = true := by
  rw [Bool.and_eq_true] at h
  exact ⟨by simpa using h.2, h.1⟩

theorem loadSource_spec (specifier : Specifier) :
    Ensures Never (Orderly host container) (host.loadSource container specifier)
      fun _ => Orderly host container := by
  cases specifier with
  | other url => exact .pure fun w hw => hw
  | file path =>
      refine (canonicalizeOr_spec path).bind fun canonical => readsAll_spec.bind fun yes => ?_
      cases yes with
      | true =>
          exact (read_spec fun last hlast => .inr (.inl hlast)).bind fun _ => .pure fun w hw => hw
      | false =>
          refine .ite nofun fun _ => .ite (fun hexempt => ?_) fun hchecked => ?_
          · obtain ⟨hbroker, hnpm⟩ := exempt_of hexempt
            exact (read_spec fun last hlast => .inr (.inr ⟨hbroker, hnpm, hlast⟩)).bind
              fun _ => .pure fun w hw => hw
          · refine ((openRead_spec canonical _).conseq (fun w hw => hw.orderly)
              fun _ _ hw => hw).bind fun answer => ?_
            cases answer with
            | error error => exact .pure fun w hw => hw.orderly
            | ok opened =>
                exact (read_spec fun last hlast => .inl ⟨_, _, hlast opened rfl⟩).bind
                  fun _ => .pure fun w hw => hw

/-- What `ensure_read_permission` lets pass has its grant. -/
theorem ensureReadPermission_spec (path : Path) :
    Ensures Never (Orderly host container) (host.ensureReadPermission container path)
      fun answer => Known host container fun last => ∀ granted, answer = .ok granted →
        Opened container last granted ∨ AllGranted host container last ∨
          PackageFile host last granted := by
  refine readsAll_spec.bind fun yes => ?_
  cases yes with
  | true => exact .pure fun w hw => ⟨hw.1, fun granted heq => .inr (.inl hw.2)⟩
  | false =>
      refine .ite nofun fun _ => (canonicalizeOr_spec path).bind fun canonical => ?_
      refine .ite (fun hexempt => ?_) fun hchecked => ?_
      · obtain ⟨hbroker, hnpm⟩ := exempt_of hexempt
        refine .pure fun w hw => ⟨hw.1, fun granted heq => ?_⟩
        cases heq
        exact .inr (.inr ⟨hbroker, hnpm, hw.2⟩)
      · exact (openRead_spec canonical _).conseq (fun w hw => hw.orderly) fun answer w hw =>
          ⟨hw.1, fun granted heq => .inl ⟨_, _, hw.2 granted heq⟩⟩

/-- `load_text_file_lossy` asks a broker itself, and relies on its caller without one. -/
theorem loadTextFileLossy_spec (path : Path) :
    Ensures Never
      (Known host container fun last => Opened container last path ∨
        AllGranted host container last ∨ PackageFile host last path)
      (host.loadTextFileLossy container path) fun _ => Orderly host container := by
  refine .ite (fun hbroker => ?_) fun hbroker => ?_
  · refine ((canonicalizeOr_spec path).conseq (fun w hw => hw.orderly) fun _ _ hw => hw).bind
      fun canonical => ?_
    refine ((openRead_spec canonical _).conseq (fun w hw => hw.orderly) fun _ _ hw => hw).bind
      fun answer => ?_
    cases answer with
    | error error => exact .pure fun w hw => hw.orderly
    | ok opened =>
        exact (read_spec fun last hlast => .inl ⟨_, _, hlast opened rfl⟩).bind
          fun _ => .pure fun w hw => hw
  · exact (read_spec fun last hlast => hlast).bind fun _ => .pure fun w hw => hw

theorem requireReadFile_spec (path : Path) :
    Ensures Never (Orderly host container) (host.requireReadFile container path)
      fun _ => Orderly host container := by
  refine (ensureReadPermission_spec path).bind fun answer => ?_
  cases answer with
  | error error => exact .pure fun w hw => hw.orderly
  | ok granted =>
      exact (loadTextFileLossy_spec granted).conseq (fun w hw => ⟨hw.1, hw.2 granted rfl⟩)
        fun _ _ hw => hw

theorem checkedPath_spec (path : Path) :
    Ensures Never (Orderly host container) (host.checkedPath container path) fun answer =>
      Known host container fun last => ∀ checked, answer = .ok checked →
        Opened container last checked := by
  refine (canonicalizeOr_spec path).bind fun canonical => ?_
  exact (openRead_spec canonical _).conseq (fun w hw => hw.orderly) fun answer w hw =>
    ⟨hw.1, fun checked heq => ⟨_, _, hw.2 checked heq⟩⟩

/-- The original op is called with the path that was opened, where there is a broker. -/
theorem guardOp_spec (op : RequireOp) (path : Path) :
    Ensures Never (Orderly host container) (host.guardOp op container path)
      fun _ => Orderly host container := by
  refine .ite (fun hbroker => ?_) fun hbroker => ?_
  · refine (checkedPath_spec path).bind fun answer => ?_
    cases answer with
    | error error => exact .pure fun w hw => hw.orderly
    | ok checked => exact touch_spec fun last hlast _ => hlast checked rfl
  · exact touch_spec fun last _ hinstalled => absurd hinstalled hbroker

theorem opRequirePackageScopeGuard_spec (path : Path) :
    Ensures Never (Orderly host container) (host.opRequirePackageScopeGuard container path)
      fun _ => Orderly host container := by
  refine .ite (fun hbroker => ?_) fun hbroker => .ite (fun hname => ?_) fun hname => ?_
  · refine Ensures.bind (touch_spec fun last _ hinstalled => ?_) fun _ => .pure fun w hw => hw
    rw [hinstalled] at hbroker
    cases hbroker
  · exact .pure fun w hw => hw
  · refine (checkedPath_spec path).bind fun answer => ?_
    cases answer with
    | error error => exact .pure fun w hw => hw.orderly
    | ok checked =>
        exact (read_spec fun last hlast => .inl (hlast checked rfl)).bind
          fun _ => .pure fun w hw => hw

/-- The check of a dynamic import, which leaves the files of packages to the other one. -/
theorem checkDynamicImportRead_spec (specifier : Specifier) :
    Ensures Never (Orderly host container) (host.checkDynamicImportRead container specifier)
      fun answer => Known host container fun last => answer = .ok () →
        ∀ path, specifier = .file path → host.inNpmPackage path = false →
          AllGranted host container last ∨ ∃ opened,
            last = some (.checked container "import" path opened) := by
  cases specifier with
  | other url => exact .pure fun w hw => ⟨hw.1, nofun⟩
  | file path =>
      refine .ite (fun hnpm => .pure fun w hw => ⟨hw.1, ?_⟩) fun hnpm => ?_
      · rintro - _ ⟨⟩ hnot
        rw [hnpm] at hnot
        cases hnot
      · refine readsAll_spec.bind fun yes => ?_
        cases yes with
        | true =>
            refine .pure fun w hw => ⟨hw.1, ?_⟩
            rintro - _ ⟨⟩ -
            exact .inl hw.2
        | false =>
            refine .ite nofun fun _ =>
              (openRead_spec path _).bind fun answer => .pure fun w hw => ⟨hw.1, ?_⟩
            rintro hanswer _ ⟨⟩ -
            cases answer with
            | error error => cases hanswer
            | ok opened => exact .inr ⟨opened, hw.2 opened rfl⟩

/-- What is known of a specifier that is about to be checked as a package's. -/
def Imported (host : Host) (container : Container) (dynamic : Bool) (specifier : Specifier)
    (last : Option Event) : Prop :=
  dynamic = true → ∀ path, specifier = .file path → host.inNpmPackage path = false →
    AllGranted host container last ∨ ∃ opened,
      last = some (.checked container "import" path opened)

theorem checkNpmSourceRead_spec (dynamic : Bool) (specifier : Specifier) :
    Ensures Never (Known host container (Imported host container dynamic specifier))
      (host.checkNpmSourceRead container specifier)
      fun answer => Known host container fun last => ∀ checked, answer = .ok checked →
        Grants host container last (.loads dynamic checked) := by
  cases specifier with
  | other url =>
      refine .pure fun w hw => ⟨hw.1, ?_⟩
      rintro _ ⟨⟩
      trivial
  | file path =>
      refine .ite (fun hfree => .pure fun w hw => ⟨hw.1, ?_⟩) fun hnpm => ?_
      · rintro _ ⟨⟩
        refine ⟨fun hbroker hpackage => ?_, fun hdynamic hnot => ?_⟩
        · simp [hbroker, hpackage] at hfree
        · exact (hw.2 hdynamic path rfl hnot).imp_right fun ⟨opened, hlast⟩ =>
            ⟨path, opened, hlast, .inl rfl⟩
      · refine ((canonicalizeOr_spec path).conseq (fun w hw => hw.orderly) fun _ _ hw => hw).bind
          fun canonical => ?_
        refine ((openRead_spec canonical _).conseq (fun w hw => hw.orderly) fun _ _ hw => hw).bind
          fun answer => ?_
        cases answer with
        | error error => exact .pure fun w hw => ⟨hw.1, nofun⟩
        | ok opened =>
            refine .ite (fun habsolute => .pure fun w hw => ⟨hw.1, ?_⟩) fun habsolute =>
              .pure fun w hw => ⟨hw.1, nofun⟩
            rintro _ ⟨⟩
            have hlast := hw.2 opened rfl
            exact ⟨fun _ _ => ⟨_, _, hlast⟩, fun _ _ => .inr ⟨_, _, hlast, .inr rfl⟩⟩

theorem load_spec (requested : Specifier) (dynamic : Bool) :
    Ensures Never (Orderly host container) (host.load container requested dynamic)
      fun _ => Orderly host container := by
  have resolved (specifier : Specifier) :
      Ensures Never (Orderly host container)
        (Host.load.loadResolved host container dynamic specifier)
        fun _ => Orderly host container := by
    refine Ensures.attempt (C := fun answer => Known host container fun last =>
      answer = .ok () → Imported host container dynamic specifier last) ?_
      (fun e => .pure fun w hw => hw.orderly) fun _ => ?_
    · refine .ite (fun hdynamic => ?_) fun hstatic => .pure fun w hw => ⟨hw.1, fun _ h => ?_⟩
      · exact (checkDynamicImportRead_spec specifier).weaken fun answer w hw =>
          ⟨hw.1, fun hanswer _ => hw.2 hanswer⟩
      · exact absurd h hstatic
    · refine Ensures.attempt ((checkNpmSourceRead_spec dynamic specifier).conseq
        (fun w hw => ⟨hw.1, hw.2 rfl⟩) fun _ _ hw => hw) (fun e => .pure fun w hw => hw.orderly)
        fun checked => ?_
      exact touch_spec fun last hlast => hlast checked rfl
  refine (asks_spec fun _ _ _ heq => by cases heq).bind fun answer => ?_
  match answer with
  | some (.error error) => exact .pure fun w hw => hw.orderly
  | some (.ok specifier) =>
      exact (resolved specifier).conseq (fun w hw => hw.orderly) fun _ _ hw => hw
  | none => exact (resolved requested).conseq (fun w hw => hw.orderly) fun _ _ hw => hw

/-! ### Runs -/

/-- What a run asks for, in any order. -/
inductive Op
  | analyze (specifier : Specifier)
  | requireFile (path : Path)
  | stat (path : Path)
  | realPath (path : Path)
  | packageImports (referrer : Path)
  | packageScope (path : Path)
  | load (requested : Specifier) (dynamic : Bool)
  deriving Repr, DecidableEq

namespace Host

variable (host : Host) (container : Container)

def perform : Op → Sys Unit
  | .analyze specifier => do let _ ← host.loadSource container specifier
  | .requireFile path => do let _ ← host.requireReadFile container path
  | .stat path => do let _ ← host.opRequireStatGuard container path
  | .realPath path => do let _ ← host.opRequireRealPathGuard container path
  | .packageImports referrer => do let _ ← host.opRequirePackageImportsGuard container referrer
  | .packageScope path => do let _ ← host.opRequirePackageScopeGuard container path
  | .load requested dynamic => do let _ ← host.load container requested dynamic

def run : List Op → Sys Unit
  | [] => return ()
  | op :: ops => do
      host.perform container op
      run ops

end Host

theorem perform_spec (op : Op) :
    Ensures Never (Orderly host container) (host.perform container op)
      fun _ => Orderly host container := by
  cases op with
  | analyze specifier => exact (loadSource_spec specifier).bind fun _ => .pure fun w hw => hw
  | requireFile path => exact (requireReadFile_spec path).bind fun _ => .pure fun w hw => hw
  | stat path => exact (guardOp_spec _ path).bind fun _ => .pure fun w hw => hw
  | realPath path => exact (guardOp_spec _ path).bind fun _ => .pure fun w hw => hw
  | packageImports referrer => exact (guardOp_spec _ referrer).bind fun _ => .pure fun w hw => hw
  | packageScope path =>
      exact (opRequirePackageScopeGuard_spec path).bind fun _ => .pure fun w hw => hw
  | load requested dynamic =>
      exact (load_spec requested dynamic).bind fun _ => .pure fun w hw => hw

theorem run_spec (ops : List Op) :
    Ensures Never (Orderly host container) (host.run container ops)
      fun _ => Orderly host container := by
  induction ops with
  | nil => exact .pure fun w hw => hw
  | cons op ops ih => exact (perform_spec op).bind fun _ => ih

theorem authorised_split {newer older : List Event} {event : Event}
    (h : Authorised host container (newer ++ event :: older)) :
    Grants host container older.head? event := by
  induction newer with
  | nil => exact h.1
  | cons first newer ih => exact ih h.2

end Libdeno.Runtime.ReadAuthority
