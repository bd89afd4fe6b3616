import Mathlib.Data.List.Destutter
import Mathlib.Data.List.Sort
import Mathlib.Logic.Function.Basic

/-!
# Libdeno.Graph.FrozenLockfile

A module graph is built against a lockfile. When the lockfile is frozen the build works on
a copy of the graph and records checksums in an overlay of the lockfile, the
`FrozenGraphLocker`; an overlay that would change a checksum fails the build.

`deno_graph` and the lockfile itself are not part of the repository. The graph's operations
are parameters; what a build does with its locker is a program of calls of `Locker`, in
which every answer may decide what comes next. `frozen_lockfile` is the main result.
-/

namespace Libdeno.Graph

/-! ### Lockers -/

/-- The trait `Locker`, over a state of type `σ`. -/
structure Locker (σ Specifier PackageNv Checksum : Type) where
  getRemoteChecksum : σ → Specifier → Option Checksum
  hasRemoteChecksum : σ → Specifier → Bool
  setRemoteChecksum : σ → Specifier → Checksum → σ
  getPkgManifestChecksum : σ → PackageNv → Option Checksum
  setPkgManifestChecksum : σ → PackageNv → Checksum → σ

/-- What is computed with the calls of a locker. -/
inductive Locking (Specifier PackageNv Checksum : Type) (α : Type)
  | done (value : α)
  | getRemoteChecksum (specifier : Specifier)
      (next : Option Checksum → Locking Specifier PackageNv Checksum α)
  | hasRemoteChecksum (specifier : Specifier)
      (next : Bool → Locking Specifier PackageNv Checksum α)
  | setRemoteChecksum (specifier : Specifier) (checksum : Checksum)
      (next : Locking Specifier PackageNv Checksum α)
  | getPkgManifestChecksum (packageNv : PackageNv)
      (next : Option Checksum → Locking Specifier PackageNv Checksum α)
  | setPkgManifestChecksum (packageNv : PackageNv) (checksum : Checksum)
      (next : Locking Specifier PackageNv Checksum α)

variable {Lockfile ModuleGraph Specifier PackageNv Checksum σ α : Type}

/-- Run the calls on a locker. -/
def Locking.run (locker : Locker σ Specifier PackageNv Checksum) :
    Locking Specifier PackageNv Checksum α → σ → α × σ
  | .done value, state => (value, state)
  | .getRemoteChecksum specifier next, state =>
      (next (locker.getRemoteChecksum state specifier)).run locker state
  | .hasRemoteChecksum specifier next, state =>
      (next (locker.hasRemoteChecksum state specifier)).run locker state
  | .setRemoteChecksum specifier checksum next, state =>
      next.run locker (locker.setRemoteChecksum state specifier checksum)
  | .getPkgManifestChecksum packageNv next, state =>
      (next (locker.getPkgManifestChecksum state packageNv)).run locker state
  | .setPkgManifestChecksum packageNv checksum next, state =>
      next.run locker (locker.setPkgManifestChecksum state packageNv checksum)

/-- A call that records a checksum. -/
inductive SetCall (Specifier PackageNv Checksum : Type)
  | remote (specifier : Specifier) (checksum : Checksum)
  | pkgManifest (packageNv : PackageNv) (checksum : Checksum)

def SetCall.checksum : SetCall Specifier PackageNv Checksum → Checksum
  | .remote _ checksum | .pkgManifest _ checksum => checksum

/-- Make the call. -/
def Locker.set (locker : Locker σ Specifier PackageNv Checksum) (state : σ) :
    SetCall Specifier PackageNv Checksum → σ
  | .remote specifier checksum => locker.setRemoteChecksum state specifier checksum
  | .pkgManifest packageNv checksum => locker.setPkgManifestChecksum state packageNv checksum

/-- The checksum in effect where the call records one. -/
def Locker.inEffect (locker : Locker σ Specifier PackageNv Checksum) (state : σ) :
    SetCall Specifier PackageNv Checksum → Option Checksum
  | .remote specifier _ => locker.getRemoteChecksum state specifier
  | .pkgManifest packageNv _ => locker.getPkgManifestChecksum state packageNv

/-- Whatever is computed, the locker is left as some calls of its setters leave it. -/
theorem Locking.run_calls (locker : Locker σ Specifier PackageNv Checksum)
    (program : Locking Specifier PackageNv Checksum α) (state : σ) :
    ∃ calls : List (SetCall Specifier PackageNv Checksum),
      (program.run locker state).2 = calls.foldl locker.set state := by
  induction program generalizing state with
  | done value => exact ⟨[], rfl⟩
  | getRemoteChecksum specifier next ih => exact ih _ state
  | hasRemoteChecksum specifier next ih => exact ih _ state
  | getPkgManifestChecksum packageNv next ih => exact ih _ state
  | setRemoteChecksum specifier checksum next ih =>
      obtain ⟨calls, hcalls⟩ := ih (locker.setRemoteChecksum state specifier checksum)
      exact ⟨.remote specifier checksum :: calls, hcalls⟩
  | setPkgManifestChecksum packageNv checksum next ih =>
      obtain ⟨calls, hcalls⟩ := ih (locker.setPkgManifestChecksum state packageNv checksum)
      exact ⟨.pkgManifest packageNv checksum :: calls, hcalls⟩

/-! ### The frozen locker -/

/-- `HashMapLocker`: two maps. -/
structure HashMapLocker (Specifier PackageNv Checksum : Type) where
  remote : Specifier → Option Checksum
  pkgManifests : PackageNv → Option Checksum

/-- `HashMapLocker::default`. -/
def HashMapLocker.empty : HashMapLocker Specifier PackageNv Checksum where
  remote := fun _ => none
  pkgManifests := fun _ => none

/-- `FrozenGraphLocker`. -/
structure FrozenGraphLocker (Lockfile Specifier PackageNv Checksum : Type) where
  lockfile : Lockfile
  changes : HashMapLocker Specifier PackageNv Checksum
  changed : Bool

namespace FrozenGraphLocker

/-- `FrozenGraphLocker::new`. -/
def new (lockfile : Lockfile) : FrozenGraphLocker Lockfile Specifier PackageNv Checksum where
  lockfile := lockfile
  changes := .empty
  changed := false

/-- `has_changes`. -/
def hasChanges (self : FrozenGraphLocker Lockfile Specifier PackageNv Checksum) : Bool :=
  self.changed

section

variable [DecidableEq Specifier] [DecidableEq PackageNv] [DecidableEq Checksum]
  (asDenoGraphLocker : Locker Lockfile Specifier PackageNv Checksum)

/-- `get_remote_checksum`. -/
def getRemoteChecksum (self : FrozenGraphLocker Lockfile Specifier PackageNv Checksum)
    (specifier : Specifier) : Option Checksum :=
  (self.changes.remote specifier).or
    (asDenoGraphLocker.getRemoteChecksum self.lockfile specifier)

/-- `has_remote_checksum`. -/
def hasRemoteChecksum (self : FrozenGraphLocker Lockfile Specifier PackageNv Checksum)
    (specifier : Specifier) : Bool :=
  (self.getRemoteChecksum asDenoGraphLocker specifier).isSome

/-- `set_remote_checksum`. -/
def setRemoteChecksum (self : FrozenGraphLocker Lockfile Specifier PackageNv Checksum)
    (specifier : Specifier) (checksum : Checksum) :
    FrozenGraphLocker Lockfile Specifier PackageNv Checksum where
  lockfile := self.lockfile
  changes := { self.changes with
    remote := Function.update self.changes.remote specifier (some checksum) }
  changed :=
    if self.getRemoteChecksum asDenoGraphLocker specifier ≠ some checksum then true
    else self.changed

/-- `get_pkg_manifest_checksum`. -/
def getPkgManifestChecksum (self : FrozenGraphLocker Lockfile Specifier PackageNv Checksum)
    (packageNv : PackageNv) : Option Checksum :=
  (self.changes.pkgManifests packageNv).or
    (asDenoGraphLocker.getPkgManifestChecksum self.lockfile packageNv)

/-- `set_pkg_manifest_checksum`. -/
def setPkgManifestChecksum (self : FrozenGraphLocker Lockfile Specifier PackageNv Checksum)
    (packageNv : PackageNv) (checksum : Checksum) :
    FrozenGraphLocker Lockfile Specifier PackageNv Checksum where
  lockfile := self.lockfile
  changes := { self.changes with
    pkgManifests := Function.update self.changes.pkgManifests packageNv (some checksum) }
  changed :=
    if self.getPkgManifestChecksum asDenoGraphLocker packageNv ≠ some checksum then true
    else self.changed

/-- `impl Locker for FrozenGraphLocker`, over the lockfile's own locker. -/
def locker : Locker (FrozenGraphLocker Lockfile Specifier PackageNv Checksum)
    Specifier PackageNv Checksum where
  getRemoteChecksum := getRemoteChecksum asDenoGraphLocker
  hasRemoteChecksum := hasRemoteChecksum asDenoGraphLocker
  setRemoteChecksum := setRemoteChecksum asDenoGraphLocker
  getPkgManifestChecksum := getPkgManifestChecksum asDenoGraphLocker
  setPkgManifestChecksum := setPkgManifestChecksum asDenoGraphLocker

/-- The locker looks up what the lockfile does. -/
structure Agrees (overlay : FrozenGraphLocker Lockfile Specifier PackageNv Checksum) :
    Prop where
  remote : ∀ specifier, overlay.getRemoteChecksum asDenoGraphLocker specifier =
    asDenoGraphLocker.getRemoteChecksum overlay.lockfile specifier
  pkgManifest : ∀ packageNv, overlay.getPkgManifestChecksum asDenoGraphLocker packageNv =
    asDenoGraphLocker.getPkgManifestChecksum overlay.lockfile packageNv

variable {asDenoGraphLocker}
  {self : FrozenGraphLocker Lockfile Specifier PackageNv Checksum}

@[simp] theorem set_lockfile (call : SetCall Specifier PackageNv Checksum) :
    ((locker asDenoGraphLocker).set self call).lockfile = self.lockfile := by
  cases call <;> rfl

/-- The flag after a call: it stays, and is raised by another checksum than the one in
effect. -/
theorem set_changed (call : SetCall Specifier PackageNv Checksum) :
    ((locker asDenoGraphLocker).set self call).changed = true ↔
      self.changed = true ∨
        (locker asDenoGraphLocker).inEffect self call ≠ some call.checksum := by
  cases call with
  | remote specifier checksum =>
      change (if self.getRemoteChecksum asDenoGraphLocker specifier ≠ some checksum then true
        else self.changed) = true ↔ self.changed = true ∨
          self.getRemoteChecksum asDenoGraphLocker specifier ≠ some checksum
      split <;> simp_all
  | pkgManifest packageNv checksum =>
      change (if self.getPkgManifestChecksum asDenoGraphLocker packageNv ≠ some checksum then true
        else self.changed) = true ↔ self.changed = true ∨
          self.getPkgManifestChecksum asDenoGraphLocker packageNv ≠ some checksum
      split <;> simp_all

/-- Recording the checksum in effect changes no lookup. -/
theorem Agrees.set {call : SetCall Specifier PackageNv Checksum}
    (agrees : Agrees asDenoGraphLocker self)
    (same : (locker asDenoGraphLocker).inEffect self call = some call.checksum) :
    Agrees asDenoGraphLocker ((locker asDenoGraphLocker).set self call) := by
  cases call with
  | remote specifier checksum =>
      refine ⟨fun other => ?_, agrees.pkgManifest⟩
      by_cases hother : other = specifier
      · subst hother
        have hlockfile := agrees.remote other
        rw [show self.getRemoteChecksum asDenoGraphLocker other = some checksum from same]
          at hlockfile
        simp [locker, Locker.set, setRemoteChecksum, getRemoteChecksum, ← hlockfile]
      · have hlockfile := agrees.remote other
        simp only [getRemoteChecksum] at hlockfile
        simp [locker, Locker.set, setRemoteChecksum, getRemoteChecksum, hother, hlockfile]
  | pkgManifest packageNv checksum =>
      refine ⟨agrees.remote, fun other => ?_⟩
      by_cases hother : other = packageNv
      · subst hother
        have hlockfile := agrees.pkgManifest other
        rw [show self.getPkgManifestChecksum asDenoGraphLocker other = some checksum from same]
          at hlockfile
        simp [locker, Locker.set, setPkgManifestChecksum, getPkgManifestChecksum, ← hlockfile]
      · have hlockfile := agrees.pkgManifest other
        simp only [getPkgManifestChecksum] at hlockfile
        simp [locker, Locker.set, setPkgManifestChecksum, getPkgManifestChecksum, hother,
          hlockfile]

omit [DecidableEq Specifier] [DecidableEq PackageNv] [DecidableEq Checksum] in
theorem agrees_new (lockfile : Lockfile) :
    Agrees asDenoGraphLocker
      (new lockfile : FrozenGraphLocker Lockfile Specifier PackageNv Checksum) :=
  ⟨fun _ => rfl, fun _ => rfl⟩

/-- No call takes the lockfile away. -/
theorem calls_lockfile (calls : List (SetCall Specifier PackageNv Checksum)) :
    (calls.foldl (locker asDenoGraphLocker).set self).lockfile = self.lockfile := by
  induction calls generalizing self with
  | nil => rfl
  | cons call calls ih => rw [List.foldl_cons, ih, set_lockfile]

/-- The flag is raised by the calls that record another checksum than the one in effect. -/
theorem calls_changed (calls : List (SetCall Specifier PackageNv Checksum)) :
    (calls.foldl (locker asDenoGraphLocker).set self).changed = true ↔
      self.changed = true ∨ ∃ before call after, calls = before ++ call :: after ∧
        (locker asDenoGraphLocker).inEffect
          (before.foldl (locker asDenoGraphLocker).set self) call ≠ some call.checksum := by
  induction calls generalizing self with
  | nil => simp
  | cons call calls ih =>
      rw [List.foldl_cons, ih, set_changed]
      constructor
      · rintro ((hbefore | hcall) | ⟨before, later, after, hcalls, hlater⟩)
        · exact .inl hbefore
        · exact .inr ⟨[], call, calls, rfl, hcall⟩
        · exact .inr ⟨call :: before, later, after, by rw [hcalls]; rfl, hlater⟩
      · rintro (hbefore | ⟨before, later, after, hcalls, hlater⟩)
        · exact .inl (.inl hbefore)
        · cases before with
          | nil =>
              obtain ⟨rfl, rfl⟩ := List.cons.inj hcalls
              exact .inl (.inr hlater)
          | cons first before =>
              obtain ⟨rfl, hrest⟩ := List.cons.inj hcalls
              exact .inr ⟨before, later, after, hrest, hlater⟩

/-- While the flag is down the locker looks up what the lockfile does. -/
theorem calls_agrees (calls : List (SetCall Specifier PackageNv Checksum))
    (agrees : Agrees asDenoGraphLocker self)
    (unchanged : (calls.foldl (locker asDenoGraphLocker).set self).changed = false) :
    Agrees asDenoGraphLocker (calls.foldl (locker asDenoGraphLocker).set self) := by
  induction calls generalizing self with
  | nil => exact agrees
  | cons call calls ih =>
      refine ih (agrees.set ?_) unchanged
      by_contra hother
      have hchanged : (calls.foldl (locker asDenoGraphLocker).set
          ((locker asDenoGraphLocker).set self call)).changed = true :=
        (calls_changed calls).mpr (.inl ((set_changed call).mpr (.inr hother)))
      rw [List.foldl_cons, hchanged] at unchanged
      cases unchanged

end

end FrozenGraphLocker

/-! ### Building the graph -/

/-- `deno_graph::ModuleGraphError`, as far as the retry looks into it. -/
inductive ModuleGraphError (Specifier : Type)
  | moduleError (specifier : Specifier)
  | resolutionError (referrer : Specifier)
  | typesResolutionError

/-- Where a retry of the error begins. -/
def ModuleGraphError.retry? : ModuleGraphError Specifier → Option Specifier
  | .moduleError specifier => some specifier
  | .resolutionError referrer => some referrer
  | .typesResolutionError => none

/-- `deno_graph::ModuleGraph`: `contains` is `get(..).is_some()`, `moduleErrors` the
specifiers of `module_errors()`; the walk is the one of `validate_root`. The two builds are
programs over the locker they are given, if any. -/
structure GraphApi (ModuleGraph Specifier PackageNv Checksum : Type) where
  contains : ModuleGraph → Specifier → Bool
  moduleErrors : ModuleGraph → List Specifier
  walkErrors : ModuleGraph → Specifier → List (ModuleGraphError Specifier)
  walkValidate : ModuleGraph → Specifier → Except String Unit
  resolve : ModuleGraph → Specifier → Specifier
  reload : ModuleGraph → List Specifier → Bool →
    Locking Specifier PackageNv Checksum ModuleGraph
  build : ModuleGraph → List Specifier → Bool →
    Locking Specifier PackageNv Checksum ModuleGraph

/-- `LockfileLock`. -/
structure LockfileApi (Lockfile ModuleGraph Specifier PackageNv Checksum : Type) where
  fillGraph : Lockfile → ModuleGraph → ModuleGraph
  errorIfChanged : Lockfile → Except String Unit
  asDenoGraphLocker : Locker Lockfile Specifier PackageNv Checksum

/-- What of `SharedServices` a build reads. -/
structure SharedServices where
  jsrVersionResolver : Except String Unit
  frozenLockfile : Bool

section

variable [LinearOrder Specifier] [DecidableEq PackageNv] [DecidableEq Checksum]
  (graphApi : GraphApi ModuleGraph Specifier PackageNv Checksum)
  (lockfileApi : LockfileApi Lockfile ModuleGraph Specifier PackageNv Checksum)
  (shared : SharedServices)

/-- `validate_root`. -/
def validateRoot (graph : ModuleGraph) (specifier : Specifier) : Except String Unit :=
  graphApi.walkValidate graph specifier

/-- `error_if_changed`, where there is a lockfile. -/
def errorIfChanged (lockfile : Option Lockfile) : Except String Unit :=
  match lockfile with
  | none => .ok ()
  | some lockfile => lockfileApi.errorIfChanged lockfile

/-- The graph holds the root, and without an error. -/
def loaded (graph : ModuleGraph) (specifier : Specifier) : Bool :=
  graphApi.contains graph specifier && !(graphApi.moduleErrors graph).contains specifier &&
    (validateRoot graphApi graph specifier matches .ok _)

/-- The roots of a retry: the root and where its errors are, resolved, without repetition. -/
def retryRoots (graph : ModuleGraph) (specifier : Specifier) : List Specifier :=
  (((specifier :: (graphApi.walkErrors graph specifier).filterMap ModuleGraphError.retry?).map
    (graphApi.resolve graph)).insertionSort (· ≤ ·)).destutter (· ≠ ·)

/-- The one call that builds: `reload` where the graph knows one of the roots. -/
def buildProgram (graph : ModuleGraph) (specifier : Specifier) (locked : Bool) :
    Locking Specifier PackageNv Checksum ModuleGraph :=
  let retry := retryRoots graphApi graph specifier
  if retry.any fun url =>
      graphApi.contains graph url || (graphApi.moduleErrors graph).contains url then
    graphApi.reload graph retry locked
  else
    graphApi.build graph [specifier] locked

/-- A build without a locker: there is nothing to look up and nothing to record in. -/
def noLocker : Locker Unit Specifier PackageNv Checksum where
  getRemoteChecksum := fun _ _ => none
  hasRemoteChecksum := fun _ _ => false
  setRemoteChecksum := fun _ _ _ => ()
  getPkgManifestChecksum := fun _ _ => none
  setPkgManifestChecksum := fun _ _ _ => ()

/-- Build with the locker of the attempt: the graph, the lockfile, and whether a frozen
locker has changes. -/
def runBuild (lockfile : Option Lockfile) (graph : ModuleGraph) (specifier : Specifier) :
    ModuleGraph × Option Lockfile × Bool :=
  match lockfile with
  | none => (((buildProgram graphApi graph specifier false).run noLocker ()).1, none, false)
  | some lockfile =>
      if shared.frozenLockfile then
        let (graph, frozen) := (buildProgram graphApi graph specifier true).run
          (FrozenGraphLocker.locker lockfileApi.asDenoGraphLocker) (.new lockfile)
        (graph, some frozen.lockfile, frozen.hasChanges)
      else
        let (graph, lockfile) := (buildProgram graphApi graph specifier true).run
          lockfileApi.asDenoGraphLocker lockfile
        (graph, some lockfile, false)

/-- `build_graph_attempt`: the result, the graph and the lockfile it leaves. -/
def buildGraphAttempt (lockfile : Option Lockfile) (graph : ModuleGraph)
    (specifier : Specifier) : Except String Unit × ModuleGraph × Option Lockfile :=
  match shared.jsrVersionResolver with
  | .error error => (.error error, graph, lockfile)
  | .ok () =>
      let graph := match lockfile with
        | none => graph
        | some lockfile => lockfileApi.fillGraph lockfile graph
      match errorIfChanged lockfileApi lockfile with
      | .error error => (.error error, graph, lockfile)
      | .ok () =>
          if loaded graphApi graph specifier then
            (errorIfChanged lockfileApi lockfile, graph, lockfile)
          else
            let (graph, lockfile, hasChanges) :=
              runBuild graphApi lockfileApi shared lockfile graph specifier
            match validateRoot graphApi graph specifier with
            | .error error => (.error error, graph, lockfile)
            | .ok () =>
                if hasChanges then (.error "frozen lockfile would change", graph, lockfile)
                else (errorIfChanged lockfileApi lockfile, graph, lockfile)

/-- `build_graph_with_npm_resolver`, with the graph locked. -/
def buildGraphWithNpmResolver (lockfile : Option Lockfile) (graph : ModuleGraph)
    (specifier : Specifier) : Except String Unit × ModuleGraph × Option Lockfile :=
  if shared.frozenLockfile then
    match buildGraphAttempt graphApi lockfileApi shared lockfile graph specifier with
    | (.error error, _, lockfile) => (.error error, graph, lockfile)
    | (.ok (), candidate, lockfile) => (.ok (), candidate, lockfile)
  else
    buildGraphAttempt graphApi lockfileApi shared lockfile graph specifier

variable {graphApi lockfileApi shared}

/-- A frozen build leaves the lockfile alone. -/
theorem runBuild_frozen (frozen : shared.frozenLockfile = true) (lockfile : Option Lockfile)
    (graph : ModuleGraph) (specifier : Specifier) :
    (runBuild graphApi lockfileApi shared lockfile graph specifier).2.1 = lockfile := by
  cases lockfile with
  | none => rfl
  | some lockfile =>
      obtain ⟨calls, hcalls⟩ := Locking.run_calls
        (FrozenGraphLocker.locker lockfileApi.asDenoGraphLocker)
        (buildProgram graphApi graph specifier true) (.new lockfile)
      rw [runBuild, if_pos frozen]
      change some _ = some _
      rw [hcalls, FrozenGraphLocker.calls_lockfile]
      rfl

theorem buildGraphAttempt_frozen (frozen : shared.frozenLockfile = true)
    (lockfile : Option Lockfile) (graph : ModuleGraph) (specifier : Specifier) :
    (buildGraphAttempt graphApi lockfileApi shared lockfile graph specifier).2.2 = lockfile := by
  unfold buildGraphAttempt
  split
  · rfl
  dsimp only
  generalize (match lockfile with
    | none => graph
    | some lockfile => lockfileApi.fillGraph lockfile graph) = filled
  split
  · rfl
  split
  · rfl
  have hlockfile : (runBuild graphApi lockfileApi shared lockfile filled specifier).2.1 =
      lockfile := runBuild_frozen frozen lockfile filled specifier
  split
  · exact hlockfile
  · split
    · exact hlockfile
    · exact hlockfile

/-- What a frozen build that succeeds has recorded is what the lockfile says. -/
theorem buildGraphAttempt_ok (frozen : shared.frozenLockfile = true) {lockfile : Lockfile}
    {graph : ModuleGraph} {specifier : Specifier}
    (h : (buildGraphAttempt graphApi lockfileApi shared (some lockfile) graph specifier).1 =
      .ok ()) :
    loaded graphApi (lockfileApi.fillGraph lockfile graph) specifier = true ∨
      FrozenGraphLocker.Agrees lockfileApi.asDenoGraphLocker
        ((buildProgram graphApi (lockfileApi.fillGraph lockfile graph) specifier true).run
          (FrozenGraphLocker.locker lockfileApi.asDenoGraphLocker) (.new lockfile)).2 := by
  -- Of all the ways out only the last one succeeds behind a build.
  unfold buildGraphAttempt at h
  split at h
  · cases h
  dsimp only at h
  split at h
  · cases h
  split at h
  · next hloaded => exact .inl hloaded
  refine .inr ?_
  rw [runBuild, if_pos frozen] at h
  dsimp only at h
  split at h
  · cases h
  split at h
  · cases h
  next hunchanged =>
  obtain ⟨calls, hcalls⟩ := Locking.run_calls
    (FrozenGraphLocker.locker lockfileApi.asDenoGraphLocker)
    (buildProgram graphApi (lockfileApi.fillGraph lockfile graph) specifier true) (.new lockfile)
  rw [FrozenGraphLocker.hasChanges, hcalls] at hunchanged
  rw [hcalls]
  exact FrozenGraphLocker.calls_agrees calls (FrozenGraphLocker.agrees_new lockfile)
    (Bool.eq_false_iff.mpr hunchanged)

/-- A frozen lockfile, for every lockfile and every sequence of calls that record a checksum:
the lockfile stays as it is; while `has_changes` is false every lookup is the lockfile's; and
when it is true a call recorded another checksum than the one in effect. A build against a
frozen lockfile leaves the lockfile alone, and the graph too when it fails. -/
theorem frozen_lockfile (graphApi : GraphApi ModuleGraph Specifier PackageNv Checksum)
    (lockfileApi : LockfileApi Lockfile ModuleGraph Specifier PackageNv Checksum) :
    (∀ (lockfile : Lockfile) (calls : List (SetCall Specifier PackageNv Checksum)),
      let locker := FrozenGraphLocker.locker lockfileApi.asDenoGraphLocker
      let overlay := calls.foldl locker.set (.new lockfile)
      overlay.lockfile = lockfile ∧
        (overlay.hasChanges = false →
          (∀ specifier, locker.getRemoteChecksum overlay specifier =
            lockfileApi.asDenoGraphLocker.getRemoteChecksum lockfile specifier) ∧
          (∀ specifier, locker.hasRemoteChecksum overlay specifier =
            (lockfileApi.asDenoGraphLocker.getRemoteChecksum lockfile specifier).isSome) ∧
          ∀ packageNv, locker.getPkgManifestChecksum overlay packageNv =
            lockfileApi.asDenoGraphLocker.getPkgManifestChecksum lockfile packageNv) ∧
        (overlay.hasChanges = true → ∃ before call after, calls = before ++ call :: after ∧
          locker.inEffect (before.foldl locker.set (.new lockfile)) call ≠
            some call.checksum)) ∧
    ∀ shared : SharedServices, shared.frozenLockfile = true →
      ∀ (lockfile : Option Lockfile) (graph : ModuleGraph) (specifier : Specifier),
        let built := buildGraphWithNpmResolver graphApi lockfileApi shared lockfile graph specifier
        (∀ error, built.1 = .error error → built.2.1 = graph) ∧ built.2.2 = lockfile := by
  constructor
  · intro lockfile calls locker overlay
    have hlockfile : overlay.lockfile = lockfile := FrozenGraphLocker.calls_lockfile calls
    refine ⟨hlockfile, fun hunchanged => ?_, fun hchanged => ?_⟩
    · have agrees := FrozenGraphLocker.calls_agrees calls
        (FrozenGraphLocker.agrees_new lockfile) hunchanged
      have remote : ∀ specifier, locker.getRemoteChecksum overlay specifier =
          lockfileApi.asDenoGraphLocker.getRemoteChecksum lockfile specifier := by
        intro specifier
        rw [← hlockfile]
        exact agrees.remote specifier
      refine ⟨remote, fun specifier => ?_, fun packageNv => ?_⟩
      · rw [← remote]
        rfl
      · rw [← hlockfile]
        exact agrees.pkgManifest packageNv
    · rcases (FrozenGraphLocker.calls_changed calls).mp hchanged with hbefore | hcall
      · cases hbefore
      · exact hcall
  · intro shared frozen lockfile graph specifier
    have hlockfile : (buildGraphAttempt graphApi lockfileApi shared lockfile graph
        specifier).2.2 = lockfile := buildGraphAttempt_frozen frozen lockfile graph specifier
    dsimp only
    rw [buildGraphWithNpmResolver, if_pos frozen]
    split
    · next error candidate lockfile' hattempt =>
      rw [hattempt] at hlockfile
      exact ⟨fun _ _ => rfl, hlockfile⟩
    · next candidate lockfile' hattempt =>
      rw [hattempt] at hlockfile
      exact ⟨fun error herror => (by cases herror), hlockfile⟩

end

end Libdeno.Graph
