import Mathlib.Data.Set.Function
import Libdeno.Library.Transition
import Libdeno.Snapshot.Compat

/-!
# Libdeno.Snapshot.Publication

Publishers and an importer of one bundle directory. A publisher takes the lock by `mkdir`,
removes the sidecar, replaces the files one by one and writes the sidecar last; it may
fail or crash anywhere. The importer is the wrapper's `check_bundle` followed by
`install_prebuilt_snapshot`, each file read when its turn comes and while it may be
rewritten. No step is larger than one change of the directory or one end of a read.
-/

namespace Libdeno.Snapshot

open Lines Transition

/-! ### What is published -/

section

variable (shown : Char → Bool) (lossy : List UInt8 → Str)

/-- A bundle as an export leaves it: its own manifest accepts its files. -/
def Coherent (dir : Dir) : Prop :=
  ∃ bytes text manifest snapshot table, dir manifestFile = .ok bytes ∧
    decodeUtf8 bytes = some text ∧ parse shown text = .ok manifest ∧
    dir snapshotFile = .ok snapshot ∧ dir tableFile = .ok table ∧
    verify manifest manifest.identity snapshot table = .ok () ∧
    verifyResiduals shown manifest (fromUtf8Lossy lossy table) dir = .ok ()

/-- What the build script exports is coherent. -/
theorem Exportable.coherent {js esm : List Entry} {identity : Identity} {source : Dir}
    {snapshot : List UInt8} (h : Exportable shown js esm identity source snapshot)
    (bundle : Dir) :
    ∃ exported, exportSnapshotBundle shown lossy identity source bundle = .ok exported ∧
      Coherent shown lossy exported := by
  obtain ⟨residuals, hdescribed, hclean⟩ := h.described
  obtain ⟨exported, hexported, hmanifest, hsnapshot, htable, hsame⟩ :=
    h.exported lossy hdescribed bundle
  have htext : fromUtf8Lossy lossy (encodeUtf8 (residualTable shown js esm)) =
      residualTable shown js esm := by
    rw [fromUtf8Lossy, decodeUtf8_encodeUtf8]
    rfl
  refine ⟨exported, hexported, _, _, _, snapshot, _, hmanifest, decodeUtf8_encodeUtf8 _,
    parse_render hclean, (Dir.read_inv hsnapshot).1, (Dir.read_inv htable).1,
    verify_describe identity snapshot _ residuals, ?_⟩
  rw [htext]
  exact verifyResiduals_described hdescribed hsame

/-- The last component of a path. -/
def baseName (path : Str) : Str := (path.splitOn '/').getLastD []

/-- A staging directory, as the list of its files, with what it is published for. -/
structure Staging where
  tree : List (Str × List UInt8)
  target : Str
  identity : Digest
  distinct : (tree.map Prod.fst).Nodup
  coherent : Coherent shown lossy fun name =>
    match tree.lookup name with
    | some bytes => .ok bytes
    | none => .error "No such file or directory (os error 2)"

end

section Publish

variable {shown : Char → Bool} {lossy : List UInt8 → Str} (staging : Staging shown lossy)

/-- The staging directory, to be read from. -/
def Staging.dir : Dir := fun name =>
  match staging.tree.lookup name with
  | some bytes => .ok bytes
  | none => .error "No such file or directory (os error 2)"

/-- The manifest `publish_bundle` reads. -/
def Staging.manifest : List UInt8 := (staging.tree.lookup manifestFile).getD []

/-- The checks of `publish_bundle` before it takes the lock. -/
def Staging.check : Except String Unit :=
  match [manifestFile, snapshotFile, tableFile].find? fun name =>
      (staging.tree.lookup name).isNone with
  | some name =>
      .error s!"Cargo export did not create {String.ofList name} in its fresh staging directory"
  | none =>
      if HasFormat staging.manifest then .ok ()
      else .error "Cargo export did not produce a snapshot format v2 manifest"

/-- The files that are copied: all but sidecars. -/
def Staging.files : List (Str × List UInt8) :=
  staging.tree.filter fun file => baseName file.1 ≠ sidecarFile

/-- The sidecar that is written. -/
def Staging.sidecar : List UInt8 :=
  encodeUtf8 (sidecarText staging.target staging.identity staging.manifest)

end Publish

/-! ### The states -/

/-- Where a publisher is in `publish_bundle`. -/
inductive Publisher
  /-- Before `lock.mkdir()`. -/
  | ready
  /-- The lock directory is made, the owner file is not yet written. -/
  | entering
  /-- In the `with` block, before the sidecar is removed. -/
  | clearing
  /-- Before the next file is opened for writing. -/
  | copying (rest : List (Str × List UInt8))
  /-- While `file` is written. -/
  | writing (file : Str × List UInt8) (rest : List (Str × List UInt8))
  /-- In `finally`, before the owner file is removed. -/
  | leaving
  /-- The owner file is removed, the lock directory is not. -/
  | unlocking
  | returned
  | crashed

/-- From the `mkdir` of the lock to its `rmdir`. -/
def Publisher.Critical : Publisher → Prop
  | .ready | .returned | .crashed => False
  | _ => True

/-- What the importer is about to do. `bytes` is the manifest file it goes by. -/
inductive Import
  /-- `check_bundle` reads the manifest. -/
  | wrapper
  /-- `sidecar_path.exists()`. -/
  | sidecarExists (bytes : List UInt8)
  /-- `read_record(sidecar_path)`. -/
  | record (bytes : List UInt8)
  /-- The build script reads the manifest, with a declaration for this hash. -/
  | buildManifest (manifestHash : Str)
  /-- `snapshot_compat::verify` reads the sidecar. -/
  | provenance (manifestHash : Str) (bytes : List UInt8) (manifest : Manifest)
  | readSnapshot (bytes : List UInt8) (manifest : Manifest)
  | readTable (bytes : List UInt8) (manifest : Manifest) (snapshot : List UInt8)
  /-- `verify_residuals` of the bundle. -/
  | readResiduals (bytes : List UInt8) (manifest : Manifest) (snapshot table : List UInt8)
      (rest : List Residual)
  /-- `copy_verified_residuals`, into `output`. -/
  | copyResiduals (bytes : List UInt8) (manifest : Manifest) (table : List UInt8)
      (rest : List Str) (output : Dir)
  | done (bytes : List UInt8) (manifest : Manifest) (output : Dir)
  | failed

/-- What an import is run with. -/
structure ImportJob where
  shown : Char → Bool
  lossy : List UInt8 → Str
  canonical : Str → Option Str
  target : Str
  bundle : Str
  identity : Digest
  expected : Identity
  output : Dir

section Importer

variable (job : ImportJob)

/-- The file of the bundle that is read next. A residual's name is checked first. -/
def Import.wants : Import → Option Str
  | .wrapper | .buildManifest _ => some manifestFile
  | .readSnapshot _ _ => some snapshotFile
  | .readTable _ _ _ => some tableFile
  | .readResiduals _ _ _ _ (residual :: _) =>
      match validateResidualName job.shown residual.name with
      | .ok () => some residual.name
      | .error _ => none
  | .copyResiduals _ _ _ (name :: _) _ =>
      match validateResidualName job.shown name with
      | .ok () => some name
      | .error _ => none
  | _ => none

/-- Goes on with the copying, or ends it with the check of `OUT_DIR`. -/
def Import.copyNext (bytes : List UInt8) (manifest : Manifest) (table : List UInt8)
    (rest : List Str) (output : Dir) : Import :=
  if rest ≠ [] then .copyResiduals bytes manifest table rest output
  else
    match verifyResiduals job.shown manifest (fromUtf8Lossy job.lossy table) output with
    | .error _ => .failed
    | .ok () => .done bytes manifest output

/-- Goes on with the residuals, or with the files of `OUT_DIR`. -/
def Import.checkNext (bytes : List UInt8) (manifest : Manifest) (snapshot table : List UInt8)
    (rest : List Residual) : Import :=
  if rest ≠ [] then .readResiduals bytes manifest snapshot table rest
  else
    Import.copyNext job bytes manifest table (tableSources (fromUtf8Lossy job.lossy table))
      ((job.output.write snapshotFile snapshot).write tableFile table)

/-- What is done with the bytes of the file that was wanted. -/
def Import.onRead (found : List UInt8) : Import → Import
  | .wrapper => if HasFormat found then .sidecarExists found else .failed
  | .buildManifest manifestHash =>
      match decodeUtf8 found with
      | none => .failed
      | some text =>
          match parse job.shown text with
          | .error _ => .failed
          | .ok manifest => .provenance manifestHash found manifest
  | .readSnapshot bytes manifest => .readTable bytes manifest found
  | .readTable bytes manifest snapshot =>
      match verify manifest job.expected snapshot found with
      | .error _ => .failed
      | .ok () =>
          if ResidualsListed manifest (fromUtf8Lossy job.lossy found) then
            Import.checkNext job bytes manifest snapshot found manifest.residuals
          else .failed
  | .readResiduals bytes manifest snapshot table (residual :: rest) =>
      match verifyResidual job.shown (fun _ => .ok found) residual with
      | .error _ => .failed
      | .ok () => Import.checkNext job bytes manifest snapshot table rest
  | .copyResiduals bytes manifest table (name :: rest) output =>
      match fetchResidual job.shown (fun _ => .ok found) name with
      | .error _ => .failed
      | .ok copied => Import.copyNext job bytes manifest table rest (output.write name copied)
  | _ => .failed

/-- Whether the sidecar is looked at next. -/
def Import.WantsSidecar : Import → Prop
  | .sidecarExists _ | .record _ | .provenance _ _ _ => True
  | _ => False

/-- What is done with the sidecar, if it is there. -/
def Import.onSidecar (sidecar : Option (List UInt8)) : Import → Import
  | .sidecarExists bytes => if sidecar.isSome then .record bytes else .failed
  | .record bytes =>
      match sidecar with
      | none => .failed
      | some found =>
          if checkSidecar job.target job.identity bytes found then .buildManifest (fnv bytes)
          else .failed
  | .provenance manifestHash bytes manifest =>
      match verifyCompat job.canonical job.bundle job.expected.target bytes
          (declarationText (lit "verified") job.target job.bundle manifestHash job.identity)
          sidecar with
      | .error _ => .failed
      | .ok () => .readSnapshot bytes manifest
  | _ => .failed

end Importer

/-- A file of the bundle: its bytes now, and how often it was changed. -/
structure Slot where
  content : Option (List UInt8)
  version : Nat

variable {Pub : Type} [DecidableEq Pub]

/-- The bundle directory and everyone who uses it. `published` is a history: who wrote
sidecars, the latest first. -/
structure State (Pub : Type) where
  files : Str → Slot
  sidecar : Option (List UInt8)
  lock : Option Pub
  owner : Option Pub
  publisher : Pub → Publisher
  published : List Pub
  importer : Import
  /-- The version of the wanted file when it was opened. -/
  opened : Option Nat

/-- The state with one publisher moved. -/
def State.move (s : State Pub) (p : Pub) (phase : Publisher) : State Pub :=
  { s with publisher := fun q => if q = p then phase else s.publisher q }

/-- The state with one file changed. -/
def State.change (s : State Pub) (name : Str) (bytes : List UInt8) : State Pub :=
  { s with files := fun other =>
      if other = name then ⟨some bytes, (s.files name).version + 1⟩ else s.files other }

/-- Nobody has started; the directory has no sidecar. -/
structure Initial (contents : Set (List UInt8)) (s : State Pub) : Prop where
  files : ∀ name bytes, (s.files name).content = some bytes → bytes ∈ contents
  sidecar : s.sidecar = none
  lock : s.lock = none
  owner : s.owner = none
  publisher : ∀ p, s.publisher p = .ready
  published : s.published = []
  importer : s.importer = .wrapper
  opened : s.opened = none

/-- The steps. `contents` are the byte strings that occur: a file that is being written may
have any of them, and so may a read that a write overlaps. -/
inductive Step (contents : Set (List UInt8)) (job : ImportJob)
    (staging : Pub → Staging job.shown job.lossy) : State Pub → State Pub → Prop
  | unfit {s : State Pub} {p : Pub} {e : String} (ready : s.publisher p = .ready)
      (check : (staging p).check = .error e) :
      Step contents job staging s (s.move p .returned)
  | refused {s : State Pub} {p : Pub} (ready : s.publisher p = .ready)
      (held : s.lock ≠ none) : Step contents job staging s (s.move p .returned)
  | enter {s : State Pub} {p : Pub} (ready : s.publisher p = .ready)
      (check : (staging p).check = .ok ()) (free : s.lock = none) :
      Step contents job staging s { s.move p .entering with lock := some p }
  | own {s : State Pub} {p : Pub} (entering : s.publisher p = .entering) :
      Step contents job staging s { s.move p .clearing with owner := some p }
  /-- The owner file could not be written. -/
  | disowned {s : State Pub} {p : Pub} (entering : s.publisher p = .entering) :
      Step contents job staging s { s.move p .returned with lock := none, owner := none }
  | clear {s : State Pub} {p : Pub} (clearing : s.publisher p = .clearing) :
      Step contents job staging s
        { s.move p (.copying (staging p).files) with sidecar := none }
  | openTarget {s : State Pub} {p : Pub} {file : Str × List UInt8}
      {rest : List (Str × List UInt8)} {part : List UInt8}
      (copying : s.publisher p = .copying (file :: rest)) (occurs : part ∈ contents) :
      Step contents job staging s ((s.move p (.writing file rest)).change file.1 part)
  | writePart {s : State Pub} {p : Pub} {file : Str × List UInt8}
      {rest : List (Str × List UInt8)} {part : List UInt8}
      (writing : s.publisher p = .writing file rest) (occurs : part ∈ contents) :
      Step contents job staging s (s.change file.1 part)
  | finishTarget {s : State Pub} {p : Pub} {file : Str × List UInt8}
      {rest : List (Str × List UInt8)} (writing : s.publisher p = .writing file rest) :
      Step contents job staging s ((s.move p (.copying rest)).change file.1 file.2)
  /-- `write_sidecar`: a temporary file is put in the sidecar's place. -/
  | record {s : State Pub} {p : Pub} (copied : s.publisher p = .copying []) :
      Step contents job staging s
        { s.move p .leaving with
          sidecar := some (staging p).sidecar, published := p :: s.published }
  /-- An exception inside the `with` block. -/
  | raise {s : State Pub} {p : Pub}
      (inside : s.publisher p = .clearing ∨ (∃ rest, s.publisher p = .copying rest) ∨
        ∃ file rest, s.publisher p = .writing file rest) :
      Step contents job staging s (s.move p .leaving)
  | disown {s : State Pub} {p : Pub} (leaving : s.publisher p = .leaving)
      (own : s.owner = some p) :
      Step contents job staging s { s.move p .unlocking with owner := none }
  /-- The owner file is another's or is missing: the lock stays. -/
  | forsake {s : State Pub} {p : Pub} (leaving : s.publisher p = .leaving)
      (own : s.owner ≠ some p) : Step contents job staging s (s.move p .returned)
  | unlock {s : State Pub} {p : Pub} (unlocking : s.publisher p = .unlocking) :
      Step contents job staging s { s.move p .returned with lock := none }
  | crash {s : State Pub} {p : Pub} (critical : (s.publisher p).Critical) :
      Step contents job staging s (s.move p .crashed)
  /-- A lock is removed by hand, if its publisher is not running. -/
  | removeStale {s : State Pub} {p : Pub} (held : s.lock = some p)
      (stale : ¬ (s.publisher p).Critical) :
      Step contents job staging s { s with lock := none, owner := none }
  | openFile {s : State Pub} {name : Str} (wants : s.importer.wants job = some name)
      (closed : s.opened = none) (found : (s.files name).content ≠ none) :
      Step contents job staging s { s with opened := some (s.files name).version }
  /-- The file did not change since it was opened. -/
  | readWhole {s : State Pub} {name : Str} {bytes : List UInt8}
      (wants : s.importer.wants job = some name)
      (still : s.opened = some (s.files name).version)
      (whole : (s.files name).content = some bytes) :
      Step contents job staging s
        { s with importer := s.importer.onRead job bytes, opened := none }
  /-- The file was changed while it was read. -/
  | readMixed {s : State Pub} {name : Str} {version : Nat} {bytes : List UInt8}
      (wants : s.importer.wants job = some name) (opened : s.opened = some version)
      (changed : (s.files name).version ≠ version) (occurs : bytes ∈ contents) :
      Step contents job staging s
        { s with importer := s.importer.onRead job bytes, opened := none }
  | readSidecar {s : State Pub} (wants : s.importer.WantsSidecar) :
      Step contents job staging s
        { s with importer := s.importer.onSidecar job s.sidecar }
  /-- A file is missing or cannot be read, or the process is stopped. -/
  | fail {s : State Pub} : Step contents job staging s { s with importer := .failed }

variable {contents : Set (List UInt8)} {job : ImportJob}
  {staging : Pub → Staging job.shown job.lossy}

@[simp] theorem State.move_self (s : State Pub) (p : Pub) (phase : Publisher) :
    (s.move p phase).publisher p = phase := if_pos rfl

theorem State.move_other {p q : Pub} (h : q ≠ p) (s : State Pub) (phase : Publisher) :
    (s.move p phase).publisher q = s.publisher q := if_neg h

omit [DecidableEq Pub] in
@[simp] theorem State.change_self (s : State Pub) (name : Str) (bytes : List UInt8) :
    ((s.change name bytes).files name).content = some bytes := by
  simp [State.change]

omit [DecidableEq Pub] in
theorem State.change_other {name other : Str} (h : other ≠ name) (s : State Pub)
    (bytes : List UInt8) : (s.change name bytes).files other = s.files other := if_neg h

/-! ### The lock -/

/-- Whoever is in the critical section made the lock directory that is there. -/
def Held (s : State Pub) : Prop := ∀ p, (s.publisher p).Critical → s.lock = some p

omit [DecidableEq Pub] in
theorem Held.unique {s : State Pub} (h : Held s) {p q : Pub}
    (hp : (s.publisher p).Critical) (hq : (s.publisher q).Critical) : p = q := by
  have heq := h p hp
  rw [h q hq] at heq
  exact (Option.some.inj heq).symm

omit [DecidableEq Pub] in
/-- A publisher that leaves the critical section, the lock being removed or not. -/
theorem Held.out {s t : State Pub} {p : Pub} (h : Held s)
    (gone : ¬ (t.publisher p).Critical)
    (others : ∀ q, q ≠ p → (t.publisher q).Critical → (s.publisher q).Critical)
    (lock : ∀ q, q ≠ p → s.lock = some q → t.lock = some q) : Held t := by
  intro q hq
  by_cases hne : q = p
  · rw [hne] at hq
    exact absurd hq gone
  · exact lock q hne (h q (others q hne hq))

omit [DecidableEq Pub] in
/-- A publisher that moves inside it. -/
theorem Held.inside {s t : State Pub} {p : Pub} (h : Held s) (lock : t.lock = s.lock)
    (held : s.lock = some p)
    (others : ∀ q, q ≠ p → (t.publisher q).Critical → (s.publisher q).Critical) : Held t := by
  intro q hq
  by_cases hne : q = p
  · rw [hne, lock, held]
  · rw [lock]
    exact h q (others q hne hq)

/-- Moving one publisher changes nothing for the others. -/
theorem move_critical {s : State Pub} {p : Pub} {phase : Publisher} (q : Pub) (hne : q ≠ p)
    (h : ((s.move p phase).publisher q).Critical) : (s.publisher q).Critical := by
  rw [State.move_other hne] at h
  exact h

theorem held_step {s t : State Pub} (h : Held s) (step : Step contents job staging s t) :
    Held t := by
  cases step with
  | unfit ready _ => exact h.out (by simp [Publisher.Critical]) move_critical fun _ _ h => h
  | refused ready _ => exact h.out (by simp [Publisher.Critical]) move_critical fun _ _ h => h
  -- The lock was free, so no other publisher was inside.
  | @enter p ready _ free =>
      intro q hq
      by_cases hne : q = p
      · rw [hne]
      · have hlock := h q (move_critical q hne hq)
        rw [free] at hlock
        cases hlock
  | @own p entering =>
      have held := h p (by rw [entering]; trivial)
      exact h.inside rfl held move_critical
  | @disowned p entering =>
      have held := h p (by rw [entering]; trivial)
      refine h.out (by simp [Publisher.Critical]) move_critical ?_
      intro q hne hq
      rw [held] at hq
      exact absurd (Option.some.inj hq).symm hne
  | @clear p clearing =>
      have held := h p (by rw [clearing]; trivial)
      exact h.inside rfl held move_critical
  | @openTarget p file rest part copying _ =>
      have held := h p (by rw [copying]; trivial)
      exact h.inside rfl held move_critical
  | writePart _ _ => exact h
  | @finishTarget p file rest writing =>
      have held := h p (by rw [writing]; trivial)
      exact h.inside rfl held move_critical
  | @record p copied =>
      have held := h p (by rw [copied]; trivial)
      exact h.inside rfl held move_critical
  | @raise p inside =>
      have held : s.lock = some p := by
        refine h p ?_
        rcases inside with hphase | ⟨rest, hphase⟩ | ⟨file, rest, hphase⟩
        · rw [hphase]
          trivial
        · rw [hphase]
          trivial
        · rw [hphase]
          trivial
      exact h.inside rfl held move_critical
  | @disown p leaving _ =>
      have held := h p (by rw [leaving]; trivial)
      exact h.inside rfl held move_critical
  | forsake _ _ => exact h.out (by simp [Publisher.Critical]) move_critical fun _ _ h => h
  | @unlock p unlocking =>
      have held := h p (by rw [unlocking]; trivial)
      refine h.out (by simp [Publisher.Critical]) move_critical ?_
      intro q hne hq
      rw [held] at hq
      exact absurd (Option.some.inj hq).symm hne
  | crash _ => exact h.out (by simp [Publisher.Critical]) move_critical fun _ _ h => h
  -- Only the lock of a publisher that is not inside is stale.
  | @removeStale p held stale =>
      intro q hq
      have hlock := h q hq
      rw [held] at hlock
      rw [Option.some.inj hlock] at stale
      exact absurd hq stale
  | openFile _ _ _ => exact h
  | readWhole _ _ _ => exact h
  | readMixed _ _ _ _ => exact h
  | readSidecar _ => exact h
  | fail => exact h

omit [DecidableEq Pub] in
theorem held_initial {s : State Pub} (h : Initial contents s) : Held s := by
  intro p hp
  rw [h.publisher p] at hp
  exact hp.elim

/-! ### The files behind a sidecar -/

/-- Every file of a publication is in its place. -/
def Placed (s : State Pub) (files : List (Str × List UInt8)) : Prop :=
  ∀ file ∈ files, (s.files file.1).content = some file.2

/-- A sidecar stands for a complete publication, and there is none while files are
replaced; those replaced already are in place. -/
structure Behind (staging : Pub → Staging job.shown job.lossy) (s : State Pub) : Prop where
  sidecar : ∀ bytes, s.sidecar = some bytes →
    ∃ p ∈ s.published, bytes = (staging p).sidecar ∧ Placed s (staging p).files
  copying : ∀ p rest, s.publisher p = .copying rest → s.sidecar = none ∧
    ∃ copied, (staging p).files = copied ++ rest ∧ Placed s copied
  writing : ∀ p file rest, s.publisher p = .writing file rest → s.sidecar = none ∧
    ∃ copied, (staging p).files = copied ++ file :: rest ∧ Placed s copied

theorem Staging.files_distinct {shown : Char → Bool} {lossy : List UInt8 → Str}
    (staging : Staging shown lossy) : (staging.files.map Prod.fst).Nodup :=
  staging.distinct.sublist (List.filter_sublist.map _)

omit [DecidableEq Pub] in
/-- Writing a file leaves those copied before it alone. -/
theorem Placed.change {s : State Pub} {copied rest : List (Str × List UInt8)}
    {file : Str × List UInt8} (h : Placed s copied)
    (distinct : ((copied ++ file :: rest).map Prod.fst).Nodup) (bytes : List UInt8) :
    Placed (s.change file.1 bytes) copied := by
  intro other mem
  have hne : other.1 ≠ file.1 := by
    rw [List.map_append, List.map_cons] at distinct
    exact (List.nodup_append.mp distinct).2.2 _ (List.mem_map_of_mem mem) _
      List.mem_cons_self
  rw [State.change_other hne]
  exact h other mem

omit [DecidableEq Pub] in
/-- Steps that touch neither the directory's files nor a publisher that is copying. -/
theorem Behind.frame {s t : State Pub} (h : Behind staging s) (files : t.files = s.files)
    (sidecar : t.sidecar = s.sidecar) (published : t.published = s.published)
    (copying : ∀ p rest, t.publisher p = .copying rest → s.publisher p = .copying rest)
    (writing : ∀ p file rest, t.publisher p = .writing file rest →
      s.publisher p = .writing file rest) : Behind staging t := by
  constructor
  · intro bytes hbytes
    rw [sidecar] at hbytes
    obtain ⟨p, mem, hp⟩ := h.sidecar bytes hbytes
    refine ⟨p, by rw [published]; exact mem, hp.1, ?_⟩
    intro file hfile
    rw [files]
    exact hp.2 file hfile
  · intro p rest hp
    obtain ⟨hnone, copied, hsplit, hplaced⟩ := h.copying p rest (copying p rest hp)
    refine ⟨by rw [sidecar]; exact hnone, copied, hsplit, ?_⟩
    intro file hfile
    rw [files]
    exact hplaced file hfile
  · intro p file rest hp
    obtain ⟨hnone, copied, hsplit, hplaced⟩ := h.writing p file rest (writing p file rest hp)
    refine ⟨by rw [sidecar]; exact hnone, copied, hsplit, ?_⟩
    intro file hfile
    rw [files]
    exact hplaced file hfile

/-- A move to a phase in which nothing is copied. -/
theorem Behind.move {s : State Pub} (h : Behind staging s) (p : Pub) (phase : Publisher)
    (idle : (∀ rest, phase ≠ .copying rest) ∧ ∀ file rest, phase ≠ .writing file rest) :
    Behind staging (s.move p phase) := by
  refine h.frame rfl rfl rfl ?_ ?_
  · intro q rest hq
    by_cases hne : q = p
    · rw [hne, State.move_self] at hq
      exact absurd hq (idle.1 rest)
    · rw [State.move_other hne] at hq
      exact hq
  · intro q file rest hq
    by_cases hne : q = p
    · rw [hne, State.move_self] at hq
      exact absurd hq (idle.2 file rest)
    · rw [State.move_other hne] at hq
      exact hq

omit [DecidableEq Pub] in
/-- A state in which only `p` copies, and there is no sidecar. -/
theorem Behind.only {t : State Pub} {p : Pub} (none : t.sidecar = none)
    (others : ∀ q, q ≠ p → ¬ (t.publisher q).Critical)
    (copying : ∀ rest, t.publisher p = .copying rest →
      ∃ copied, (staging p).files = copied ++ rest ∧ Placed t copied)
    (writing : ∀ file rest, t.publisher p = .writing file rest →
      ∃ copied, (staging p).files = copied ++ file :: rest ∧ Placed t copied) :
    Behind staging t := by
  have hself : ∀ q, (t.publisher q).Critical → q = p := by
    intro q hq
    by_contra hne
    exact others q hne hq
  constructor
  · intro bytes hbytes
    rw [none] at hbytes
    cases hbytes
  · intro q rest hq
    have heq := hself q (by rw [hq]; trivial)
    rw [heq] at hq ⊢
    exact ⟨none, copying rest hq⟩
  · intro q file rest hq
    have heq := hself q (by rw [hq]; trivial)
    rw [heq] at hq ⊢
    exact ⟨none, writing file rest hq⟩

theorem behind_step {s t : State Pub} (held : Held s) (h : Behind staging s)
    (step : Step contents job staging s t) : Behind staging t := by
  -- A publisher that copies is alone in the critical section.
  have halone : ∀ {p q : Pub}, (s.publisher p).Critical → q ≠ p →
      ¬ (s.publisher q).Critical := by
    intro p q hp hne hq
    exact hne (held.unique hq hp)
  cases step with
  | unfit _ _ => exact h.move _ _ ⟨by simp, by simp⟩
  | refused _ _ => exact h.move _ _ ⟨by simp, by simp⟩
  | @enter p _ _ _ =>
      have hmove := h.move p .entering ⟨by simp, by simp⟩
      exact hmove.frame rfl rfl rfl (fun _ _ h => h) fun _ _ _ h => h
  | @own p _ =>
      have hmove := h.move p .clearing ⟨by simp, by simp⟩
      exact hmove.frame rfl rfl rfl (fun _ _ h => h) fun _ _ _ h => h
  | @disowned p _ =>
      have hmove := h.move p .returned ⟨by simp, by simp⟩
      exact hmove.frame rfl rfl rfl (fun _ _ h => h) fun _ _ _ h => h
  | @clear p clearing =>
      have hcritical : (s.publisher p).Critical := by
        rw [clearing]
        trivial
      refine Behind.only (p := p) rfl ?_ ?_ ?_
      · intro q hne hq
        exact halone hcritical hne (move_critical q hne hq)
      · intro rest hphase
        have heq := (s.move_self p _).symm.trans hphase
        injection heq with heq
        exact ⟨[], by rw [heq]; rfl, by intro file mem; cases mem⟩
      · intro file rest hphase
        have heq := (s.move_self p _).symm.trans hphase
        cases heq
  | @openTarget p file rest part copying _ =>
      have hcritical : (s.publisher p).Critical := by
        rw [copying]
        trivial
      obtain ⟨hnone, copied, hsplit, hplaced⟩ := h.copying p _ copying
      refine Behind.only (p := p) hnone ?_ ?_ ?_
      · intro q hne hq
        exact halone hcritical hne (move_critical q hne hq)
      · intro rest' hphase
        have heq := (s.move_self p _).symm.trans hphase
        cases heq
      · intro file' rest' hphase
        have heq := (s.move_self p _).symm.trans hphase
        injection heq with hfile hrest
        rw [← hfile, ← hrest]
        refine ⟨copied, hsplit, ?_⟩
        have hdistinct := (staging p).files_distinct
        rw [hsplit] at hdistinct
        exact hplaced.change hdistinct part
  | @writePart p file rest part writing _ =>
      have hcritical : (s.publisher p).Critical := by
        rw [writing]
        trivial
      obtain ⟨hnone, copied, hsplit, hplaced⟩ := h.writing p _ _ writing
      refine Behind.only (p := p) hnone ?_ ?_ ?_
      · intro q hne
        exact halone hcritical hne
      · intro rest' hphase
        have heq := writing.symm.trans hphase
        cases heq
      · intro file' rest' hphase
        have heq := writing.symm.trans hphase
        injection heq with hfile hrest
        rw [← hfile, ← hrest]
        refine ⟨copied, hsplit, ?_⟩
        have hdistinct := (staging p).files_distinct
        rw [hsplit] at hdistinct
        exact hplaced.change hdistinct part
  | @finishTarget p file rest writing =>
      have hcritical : (s.publisher p).Critical := by
        rw [writing]
        trivial
      obtain ⟨hnone, copied, hsplit, hplaced⟩ := h.writing p _ _ writing
      refine Behind.only (p := p) hnone ?_ ?_ ?_
      · intro q hne hq
        exact halone hcritical hne (move_critical q hne hq)
      · intro rest' hphase
        have heq := (s.move_self p _).symm.trans hphase
        injection heq with hrest
        rw [← hrest]
        refine ⟨copied ++ [file], by rw [hsplit, List.append_assoc]; rfl, ?_⟩
        have hdistinct := (staging p).files_distinct
        rw [hsplit] at hdistinct
        intro other mem
        rcases List.mem_append.mp mem with mem | mem
        · exact hplaced.change hdistinct file.2 other mem
        · rw [List.mem_singleton.mp mem]
          exact State.change_self _ _ _
      · intro file' rest' hphase
        have heq := (s.move_self p _).symm.trans hphase
        cases heq
  | @record p copied =>
      have hcritical : (s.publisher p).Critical := by
        rw [copied]
        trivial
      obtain ⟨_, done, hsplit, hplaced⟩ := h.copying p _ copied
      rw [List.append_nil] at hsplit
      constructor
      · intro bytes hbytes
        refine ⟨p, List.mem_cons_self, (Option.some.inj hbytes).symm, ?_⟩
        rw [hsplit]
        exact hplaced
      · intro q rest hphase
        by_cases hne : q = p
        · rw [hne] at hphase
          have heq := (s.move_self p _).symm.trans hphase
          cases heq
        · have hq : (s.publisher q).Critical := by
            have hphase' := (s.move_other hne _).symm.trans hphase
            rw [hphase']
            trivial
          exact absurd hq (halone hcritical hne)
      · intro q file rest hphase
        by_cases hne : q = p
        · rw [hne] at hphase
          have heq := (s.move_self p _).symm.trans hphase
          cases heq
        · have hq : (s.publisher q).Critical := by
            have hphase' := (s.move_other hne _).symm.trans hphase
            rw [hphase']
            trivial
          exact absurd hq (halone hcritical hne)
  | raise _ => exact h.move _ _ ⟨by simp, by simp⟩
  | @disown p _ _ =>
      have hmove := h.move p .unlocking ⟨by simp, by simp⟩
      exact hmove.frame rfl rfl rfl (fun _ _ h => h) fun _ _ _ h => h
  | forsake _ _ => exact h.move _ _ ⟨by simp, by simp⟩
  | @unlock p _ =>
      have hmove := h.move p .returned ⟨by simp, by simp⟩
      exact hmove.frame rfl rfl rfl (fun _ _ h => h) fun _ _ _ h => h
  | crash _ => exact h.move _ _ ⟨by simp, by simp⟩
  | removeStale _ _ => exact h.frame rfl rfl rfl (fun _ _ h => h) fun _ _ _ h => h
  | openFile _ _ _ => exact h.frame rfl rfl rfl (fun _ _ h => h) fun _ _ _ h => h
  | readWhole _ _ _ => exact h.frame rfl rfl rfl (fun _ _ h => h) fun _ _ _ h => h
  | readMixed _ _ _ _ => exact h.frame rfl rfl rfl (fun _ _ h => h) fun _ _ _ h => h
  | readSidecar _ => exact h.frame rfl rfl rfl (fun _ _ h => h) fun _ _ _ h => h
  | fail => exact h.frame rfl rfl rfl (fun _ _ h => h) fun _ _ _ h => h

omit [DecidableEq Pub] in
theorem behind_initial {s : State Pub} (h : Initial contents s) : Behind staging s := by
  constructor
  · intro bytes hbytes
    rw [h.sidecar] at hbytes
    cases hbytes
  · intro p rest hp
    rw [h.publisher p] at hp
    cases hp
  · intro p file rest hp
    rw [h.publisher p] at hp
    cases hp

/-! ### What occurs in the directory -/

/-- The files hold only byte strings that occur. -/
def Occurring (contents : Set (List UInt8)) (s : State Pub) : Prop :=
  ∀ name bytes, (s.files name).content = some bytes → bytes ∈ contents

omit [DecidableEq Pub] in
theorem Occurring.change {s : State Pub} (h : Occurring contents s) {bytes : List UInt8}
    (occurs : bytes ∈ contents) (name : Str) : Occurring contents (s.change name bytes) := by
  intro other found hfound
  by_cases hne : other = name
  · rw [hne, State.change_self] at hfound
    rw [← Option.some.inj hfound]
    exact occurs
  · rw [State.change_other hne] at hfound
    exact h other found hfound

theorem occurring_step {s t : State Pub} (behind : Behind staging s)
    (staged : ∀ p, ∀ file ∈ (staging p).tree, file.2 ∈ contents) (h : Occurring contents s)
    (step : Step contents job staging s t) : Occurring contents t := by
  cases step with
  | openTarget _ occurs => exact Occurring.change (s := s.move _ _) h occurs _
  | writePart _ occurs => exact h.change occurs _
  | @finishTarget p file rest writing =>
      obtain ⟨_, copied, hsplit, _⟩ := behind.writing p _ _ writing
      have hfile : file ∈ (staging p).files := by
        rw [hsplit]
        exact List.mem_append_right _ List.mem_cons_self
      exact Occurring.change (s := s.move _ _) h (staged p _ (List.mem_filter.mp hfile).1) _
  | unfit _ _ => exact h
  | refused _ _ => exact h
  | enter _ _ _ => exact h
  | own _ => exact h
  | disowned _ => exact h
  | clear _ => exact h
  | record _ => exact h
  | raise _ => exact h
  | disown _ _ => exact h
  | forsake _ _ => exact h
  | unlock _ => exact h
  | crash _ => exact h
  | removeStale _ _ => exact h
  | openFile _ _ _ => exact h
  | readWhole _ _ _ => exact h
  | readMixed _ _ _ _ => exact h
  | readSidecar _ => exact h
  | fail => exact h

/-! ### Every run -/

/-- What holds in every reachable state of the directory. -/
structure Sound (contents : Set (List UInt8)) (staging : Pub → Staging job.shown job.lossy)
    (s : State Pub) : Prop where
  held : Held s
  behind : Behind staging s
  occurring : Occurring contents s

theorem sound_reachable (staged : ∀ p, ∀ file ∈ (staging p).tree, file.2 ∈ contents)
    {s : State Pub} (h : Reachable (Initial contents) (Step contents job staging) s) :
    Sound contents staging s := by
  refine h.invariant (P := Sound contents staging) ?_ ?_
  · intro s hs
    exact ⟨held_initial hs, behind_initial hs, hs.files⟩
  · intro s t hs step
    exact ⟨held_step hs.held step, behind_step hs.held hs.behind step,
      occurring_step hs.behind staged hs.occurring step⟩

end Libdeno.Snapshot
