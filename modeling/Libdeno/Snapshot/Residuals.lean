import Libdeno.Library.LexicalPath
import Libdeno.Snapshot.Bundle

/-!
# Libdeno.Snapshot.Residuals

`copy_verified_residuals` on paths: which files it reads and writes, and where. The names of
the residuals come from two texts that nobody vouches for, the table and the manifest. The
copy joins the table's names to both directories and runs before the manifest is looked at;
the verification joins the manifest's names to the output directory. Every name is validated
before each use, so every path is a strict descendant of the directory it was joined to.

The file system is a parameter: its operations may fail, and may change the world while they
do. What the two functions ask of it is recorded.
-/

namespace Libdeno.Snapshot

open Lines LexicalPath

/-! ### The names -/

/-- Normalised separators split where both kinds did. -/
theorem splitOn_normalize (text : Str) :
    (normalize text).splitOn '/' = (text.splitOnP windows.isSep).map normalize := by
  induction text with
  | nil => rfl
  | cons c text ih =>
      rw [List.splitOn] at ih ⊢
      rw [normalize, List.map_cons, List.splitOnP_cons_eq_if_modifyHead,
        List.splitOnP_cons_eq_if_modifyHead]
      by_cases hc : c = '/' ∨ c = '\\'
      · have hsep : windows.isSep c = true := by simpa [windows] using hc
        have hslash : (if c = '\\' then '/' else c) = '/' := by
          rcases hc with rfl | rfl <;> rfl
        rw [hslash, if_pos (by simp), if_pos hsep, List.map_cons, ← ih]
        rfl
      · rw [not_or] at hc
        have hsep : ¬ windows.isSep c = true := by simpa [windows] using hc
        rw [if_neg hc.2, if_neg (by simpa using hc.1), if_neg hsep]
        rw [normalize] at ih
        rw [ih]
        cases text.splitOnP windows.isSep with
        | nil => rfl
        | cons piece pieces => simp [normalize, hc.2]

/-- **A name that is accepted consists of names alone, with either separator.** -/
theorem plainPath_of_validate {shown : Char → Bool} {name : Str}
    (h : validateResidualName shown name = .ok ()) : windows.PlainPath name := by
  simp only [validateResidualName] at h
  split_ifs at h with hempty hrooted hpieces hcolon
  rw [splitOn_normalize] at hpieces
  constructor
  · cases name with
    | nil => exact absurd rfl hempty
    | cons c name =>
        have hc : (if c = '\\' then '/' else c) ≠ '/' := by simpa [normalize] using hrooted
        have : c ≠ '/' ∧ c ≠ '\\' := by
          constructor
          · rintro rfl
            exact hc rfl
          · rintro rfl
            exact hc rfl
        simpa [windows] using this
  · intro piece mem
    have hpiece : normalize piece ∉ [lit "..", lit ".", []] := by
      intro hin
      refine hpieces (List.any_eq_true.mpr ⟨_, List.mem_map_of_mem mem, ?_⟩)
      simpa [or_assoc] using hin
    refine ⟨?_, ?_, ?_⟩
    · rintro rfl
      exact hpiece (by decide)
    · rintro rfl
      exact hpiece (by decide)
    · rintro rfl
      exact hpiece (by decide)

/-- A platform whose separators are slashes, backslashes or both. -/
structure Platform extends PathSyntax Char where
  dot_eq : dot = '.'
  isSep_slash : ∀ c, isSep c = true → c = '/' ∨ c = '\\'

def unixPlatform : Platform where
  toPathSyntax := unix
  dot_eq := rfl
  isSep_slash := by simp [unix]

def windowsPlatform : Platform where
  toPathSyntax := windows
  dot_eq := rfl
  isSep_slash := by simp [windows]

/-- A name that is accepted consists of names alone on every platform. -/
theorem Platform.plainPath (s : Platform) {shown : Char → Bool} {name : Str}
    (h : validateResidualName shown name = .ok ()) : s.PlainPath name :=
  (plainPath_of_validate h).coarser s.dot_eq fun c hc => by
    simpa [windows] using s.isSep_slash c hc

/-! ### The file system -/

/-- The operations on files, by path. What is read is the content of a vector. -/
structure FileSystem (World : Type) where
  read : World → Str → Except String (List UInt8)
  createDirAll : World → Str → Except String Unit × World
  copy : World → Str → Str → Except String Unit × World
  read_le : ∀ world path bytes, read world path = .ok bytes → bytes.length ≤ isizeMax

/-- What is asked of the file system. -/
inductive Access where
  | createDir (path : Str)
  | read (path : Str)
  | write (path : Str)
  deriving DecidableEq, Repr

/-- The world, and what was asked of it so far. -/
structure Run (World : Type) where
  world : World
  accesses : List Access

section Copy

variable {World : Type} (shown : Char → Bool) (s : Platform) (fs : FileSystem World)

/-- `std::fs::read`. -/
def Run.read (run : Run World) (path : Str) : Except String (List UInt8) × Run World :=
  (fs.read run.world path, { run with accesses := run.accesses ++ [.read path] })

/-- `std::fs::create_dir_all`, of the parent if there is one. -/
def Run.createParent (run : Run World) : Option Str → Except String Unit × Run World
  | none => (.ok (), run)
  | some parent =>
      match fs.createDirAll run.world parent with
      | (.error e, world) =>
          (.error s!"failed to create {String.ofList parent}: {e}",
            { world, accesses := run.accesses ++ [.createDir parent] })
      | (.ok (), world) =>
          (.ok (), { world, accesses := run.accesses ++ [.createDir parent] })

/-- `std::fs::copy`. -/
def Run.copy (run : Run World) (source target : Str) : Except String Unit × Run World :=
  match fs.copy run.world source target with
  | (result, world) =>
      (result, { world, accesses := run.accesses ++ [.read source, .write target] })

/-- The body of the loop of `copy_verified_residuals`. -/
def copyResidual (sourceDir outputDir name : Str) (run : Run World) :
    Except String Unit × Run World :=
  match validateResidualName shown name with
  | .error e => (.error e, run)
  | .ok () =>
      let source := s.join sourceDir name
      let target := s.join outputDir name
      match run.createParent fs (s.parent target) with
      | (.error e, run) => (.error e, run)
      | (.ok (), run) =>
          match run.copy fs source target with
          | (.error e, run) =>
              (.error s!"does not contain the residual source {String.ofList name}: {e}", run)
          | (.ok (), run) => (.ok (), run)

/-- The loop of `copy_verified_residuals`. -/
def copyResiduals (sourceDir outputDir : Str) :
    List Str → Run World → Except String Unit × Run World
  | [], run => (.ok (), run)
  | name :: names, run =>
      match copyResidual shown s fs sourceDir outputDir name run with
      | (.error e, run) => (.error e, run)
      | (.ok (), run) => copyResiduals sourceDir outputDir names run

/-- The body of the loop of `verify_residuals`. -/
def verifyResidualAt (dir : Str) (residual : Residual) (run : Run World) :
    Except String Unit × Run World :=
  match validateResidualName shown residual.name with
  | .error e => (.error e, run)
  | .ok () =>
      match run.read fs (s.join dir residual.name) with
      | (.error e, run) =>
          (.error s!"missing residual source {String.ofList residual.name}: {e}", run)
      | (.ok bytes, run) =>
          if bytes.length ≠ residual.bytes ∨ fingerprint bytes ≠ residual.hash then
            (.error
              s!"residual source {String.ofList residual.name} does not match the manifest", run)
          else (.ok (), run)

/-- The loop of `verify_residuals`. -/
def verifyEachAt (dir : Str) : List Residual → Run World → Except String Unit × Run World
  | [], run => (.ok (), run)
  | residual :: residuals, run =>
      match verifyResidualAt shown s fs dir residual run with
      | (.error e, run) => (.error e, run)
      | (.ok (), run) => verifyEachAt dir residuals run

/-- `verify_residuals`. -/
def verifyResidualsAt (manifest : Manifest) (table dir : Str) (run : Run World) :
    Except String Unit × Run World :=
  if ¬ ResidualsListed manifest table then
    (.error "residual source list does not match the residual table", run)
  else verifyEachAt shown s fs dir manifest.residuals run

/-- `copy_verified_residuals`. -/
def copyVerifiedResidualsAt (manifest : Manifest) (table sourceDir outputDir : Str)
    (run : Run World) : Except String Unit × Run World :=
  match copyResiduals shown s fs sourceDir outputDir (tableSources table) run with
  | (.error e, run) => (.error e, run)
  | (.ok (), run) => verifyResidualsAt shown s fs manifest table outputDir run

/-! ### What is asked of the file system -/

/-- An access that stays in the directories: what is read is the path of a valid name in one of
them, what is written one in the output directory. -/
inductive Contained (sourceDir outputDir : Str) : Access → Prop
  | createDir {path : Str} (within : s.Within outputDir path) :
      Contained sourceDir outputDir (.createDir path)
  | readSource {name : Str} (valid : validateResidualName shown name = .ok ()) :
      Contained sourceDir outputDir (.read (s.join sourceDir name))
  | readOutput {name : Str} (valid : validateResidualName shown name = .ok ()) :
      Contained sourceDir outputDir (.read (s.join outputDir name))
  | write {name : Str} (valid : validateResidualName shown name = .ok ()) :
      Contained sourceDir outputDir (.write (s.join outputDir name))

/-- A run goes on with accesses that stay in the directories. -/
def Continues (sourceDir outputDir : Str) (run run' : Run World) : Prop :=
  ∃ more, run'.accesses = run.accesses ++ more ∧
    ∀ access ∈ more, Contained shown s sourceDir outputDir access

variable {shown s fs} {sourceDir outputDir : Str}

@[refl] theorem Continues.refl (run : Run World) :
    Continues shown s sourceDir outputDir run run := ⟨[], by simp⟩

@[trans] theorem Continues.trans {a b c : Run World}
    (hab : Continues shown s sourceDir outputDir a b)
    (hbc : Continues shown s sourceDir outputDir b c) :
    Continues shown s sourceDir outputDir a c := by
  obtain ⟨more, hmore, hin⟩ := hab
  obtain ⟨more', hmore', hin'⟩ := hbc
  refine ⟨more ++ more', by rw [hmore', hmore, List.append_assoc], ?_⟩
  intro access mem
  exact (List.mem_append.mp mem).elim (hin access) (hin' access)

variable (shown s fs sourceDir outputDir)

/-- The parent of a target is in the output directory. -/
theorem createParent_continues {name : Str} (valid : validateResidualName shown name = .ok ())
    (run : Run World) :
    Continues shown s sourceDir outputDir run
      (run.createParent fs (s.parent (s.join outputDir name))).2 := by
  cases hparent : s.parent (s.join outputDir name) with
  | none => rfl
  | some parent =>
      have hin : Contained shown s sourceDir outputDir (.createDir parent) :=
        .createDir ((s.plainPath valid).parent_within hparent)
      rw [Run.createParent]
      rcases fs.createDirAll run.world parent with ⟨result, world⟩
      cases result <;> exact ⟨_, rfl, by simpa using hin⟩

theorem copyResidual_continues (name : Str) (run : Run World) :
    Continues shown s sourceDir outputDir run
      (copyResidual shown s fs sourceDir outputDir name run).2 := by
  rw [copyResidual]
  cases hvalid : validateResidualName shown name with
  | error e => rfl
  | ok =>
      have hcreated := createParent_continues shown s fs sourceDir outputDir hvalid run
      simp only
      generalize run.createParent fs (s.parent (s.join outputDir name)) = after at hcreated ⊢
      obtain ⟨created, run'⟩ := after
      cases created with
      | error e => exact hcreated
      | ok =>
          refine hcreated.trans ?_
          have hin : ∀ access ∈ [Access.read (s.join sourceDir name),
              .write (s.join outputDir name)], Contained shown s sourceDir outputDir access := by
            simpa using ⟨Contained.readSource hvalid, Contained.write hvalid⟩
          have hcopied : Continues shown s sourceDir outputDir run'
              (run'.copy fs (s.join sourceDir name) (s.join outputDir name)).2 := ⟨_, rfl, hin⟩
          simp only
          generalize run'.copy fs (s.join sourceDir name) (s.join outputDir name) = after
            at hcopied ⊢
          obtain ⟨result, run''⟩ := after
          cases result <;> exact hcopied

theorem copyResiduals_continues (names : List Str) (run : Run World) :
    Continues shown s sourceDir outputDir run
      (copyResiduals shown s fs sourceDir outputDir names run).2 := by
  induction names generalizing run with
  | nil => rfl
  | cons name names ih =>
      have hname := copyResidual_continues shown s fs sourceDir outputDir name run
      rw [copyResiduals]
      generalize copyResidual shown s fs sourceDir outputDir name run = after at hname ⊢
      obtain ⟨result, run'⟩ := after
      cases result with
      | error e => exact hname
      | ok => exact hname.trans (ih run')

theorem verifyResidualAt_continues (residual : Residual) (run : Run World) :
    Continues shown s sourceDir outputDir run
      (verifyResidualAt shown s fs outputDir residual run).2 := by
  rw [verifyResidualAt]
  cases hvalid : validateResidualName shown residual.name with
  | error e => rfl
  | ok =>
      have hread : Continues shown s sourceDir outputDir run
          (run.read fs (s.join outputDir residual.name)).2 :=
        ⟨_, rfl, by simpa using Contained.readOutput hvalid⟩
      simp only [Run.read] at hread ⊢
      cases fs.read run.world (s.join outputDir residual.name) with
      | error e => exact hread
      | ok bytes =>
          simp only
          split_ifs <;> exact hread

theorem verifyEachAt_continues (residuals : List Residual) (run : Run World) :
    Continues shown s sourceDir outputDir run
      (verifyEachAt shown s fs outputDir residuals run).2 := by
  induction residuals generalizing run with
  | nil => rfl
  | cons residual residuals ih =>
      have hresidual := verifyResidualAt_continues shown s fs sourceDir outputDir residual run
      rw [verifyEachAt]
      generalize verifyResidualAt shown s fs outputDir residual run = after at hresidual ⊢
      obtain ⟨result, run'⟩ := after
      cases result with
      | error e => exact hresidual
      | ok => exact hresidual.trans (ih run')

/-- Whatever the outcome, every access stays in the directories. -/
theorem copyVerifiedResidualsAt_continues (manifest : Manifest) (table : Str)
    (run : Run World) :
    Continues shown s sourceDir outputDir run
      (copyVerifiedResidualsAt shown s fs manifest table sourceDir outputDir run).2 := by
  have hcopied := copyResiduals_continues shown s fs sourceDir outputDir (tableSources table) run
  rw [copyVerifiedResidualsAt]
  generalize copyResiduals shown s fs sourceDir outputDir (tableSources table) run =
    after at hcopied ⊢
  obtain ⟨result, run'⟩ := after
  cases result with
  | error e => exact hcopied
  | ok =>
      refine hcopied.trans ?_
      simp only [verifyResidualsAt]
      split_ifs with hlisted
      · exact verifyEachAt_continues shown s fs sourceDir outputDir _ run'
      · rfl

/-! ### What the verification finds -/

/-- The files of a directory, as the world has them. -/
def FileSystem.dirAt (fs : FileSystem World) (s : Platform) (world : World) (dir : Str) : Dir :=
  fun name => fs.read world (s.join dir name)

theorem FileSystem.read_dirAt (world : World) (dir name : Str) :
    (fs.dirAt s world dir).read name = fs.read world (s.join dir name) := by
  rw [Dir.read, FileSystem.dirAt]
  cases hread : fs.read world (s.join dir name) with
  | error e => rfl
  | ok bytes => exact if_neg (not_lt.mpr (fs.read_le _ _ _ hread))

/-- One residual is verified as in the directory of its files, and nothing changes. -/
theorem verifyResidualAt_refines (dir : Str) (residual : Residual) (run : Run World) :
    (verifyResidualAt shown s fs dir residual run).1 =
        verifyResidual shown (fs.dirAt s run.world dir) residual ∧
      (verifyResidualAt shown s fs dir residual run).2.world = run.world := by
  rw [verifyResidualAt, verifyResidual, FileSystem.read_dirAt]
  cases validateResidualName shown residual.name with
  | error e => exact ⟨rfl, rfl⟩
  | ok =>
      simp only [Run.read]
      cases fs.read run.world (s.join dir residual.name) with
      | error e => exact ⟨rfl, rfl⟩
      | ok bytes =>
          simp only
          split_ifs <;> exact ⟨rfl, rfl⟩

theorem verifyEachAt_refines (dir : Str) (residuals : List Residual) (run : Run World) :
    (verifyEachAt shown s fs dir residuals run).1 =
        verifyEach shown (fs.dirAt s run.world dir) residuals ∧
      (verifyEachAt shown s fs dir residuals run).2.world = run.world := by
  induction residuals generalizing run with
  | nil => exact ⟨rfl, rfl⟩
  | cons residual residuals ih =>
      obtain ⟨hresult, hworld⟩ := verifyResidualAt_refines shown s fs dir residual run
      rw [verifyEachAt, verifyEach, ← hresult]
      generalize verifyResidualAt shown s fs dir residual run = after at hworld ⊢
      obtain ⟨result, run'⟩ := after
      cases result with
      | error e => exact ⟨rfl, hworld⟩
      | ok =>
          have hrest := ih run'
          rw [show run'.world = run.world from hworld] at hrest
          exact hrest

/-- The verification on paths is the one on the directory of the files found there. -/
theorem verifyResidualsAt_refines (manifest : Manifest) (table dir : Str) (run : Run World) :
    (verifyResidualsAt shown s fs manifest table dir run).1 =
        verifyResiduals shown manifest table (fs.dirAt s run.world dir) ∧
      (verifyResidualsAt shown s fs manifest table dir run).2.world = run.world := by
  rw [verifyResidualsAt, verifyResiduals]
  split_ifs with hlisted
  · exact verifyEachAt_refines shown s fs dir manifest.residuals run
  · exact ⟨rfl, rfl⟩

/-- What a successful verification says of the names. -/
theorem verifyResiduals_listed {shown : Char → Bool} {manifest : Manifest} {table : Str} {dir : Dir}
    (h : verifyResiduals shown manifest table dir = .ok ()) :
    (manifest.residuals.map (·.name)).Nodup ∧
      ∀ name, name ∈ manifest.residuals.map (·.name) ↔ name ∈ tableSources table := by
  rw [verifyResiduals] at h
  split_ifs at h with hlisted
  · refine ⟨nodup_of_length_sortDedup (by simpa using hlisted.2), ?_⟩
    intro name
    rw [← mem_sortDedup_iff, hlisted.1, mem_sortDedup_iff]

/-- **Residual names are contained.** An accepted name, joined to a directory, is a strict
descendant of it, with either separator. Whatever a copy returns, it read and wrote only such
paths under the two directories. Where it succeeds, the manifest lists the names of the table,
each once, and the output directory has them with the lengths and hashes it states. -/
theorem residuals_contained (shown : Char → Bool) (s : Platform) (fs : FileSystem World)
    (manifest : Manifest) (table sourceDir outputDir : Str) (world : World) :
    (∀ name, validateResidualName shown name = .ok () →
      ∀ dir, s.Below dir (s.join dir name)) ∧
    ∀ result run, copyVerifiedResidualsAt shown s fs manifest table sourceDir outputDir
        ⟨world, []⟩ = (result, run) →
      (∀ path, .read path ∈ run.accesses → s.Below sourceDir path ∨ s.Below outputDir path) ∧
      (∀ path, .write path ∈ run.accesses → s.Below outputDir path) ∧
      (∀ path, .createDir path ∈ run.accesses → s.Within outputDir path) ∧
      (result = .ok () →
        (manifest.residuals.map (·.name)).Nodup ∧
        (∀ name, name ∈ manifest.residuals.map (·.name) ↔ name ∈ tableSources table) ∧
        ∀ residual ∈ manifest.residuals, ∃ bytes,
          fs.read run.world (s.join outputDir residual.name) = .ok bytes ∧
            bytes.length = residual.bytes ∧ fingerprint bytes = residual.hash) := by
  have hbelow : ∀ name, validateResidualName shown name = .ok () →
      ∀ dir, s.Below dir (s.join dir name) :=
    fun name valid dir => (s.plainPath valid).below dir
  refine ⟨hbelow, ?_⟩
  intro result run h
  have hrun := copyVerifiedResidualsAt_continues shown s fs sourceDir outputDir manifest table
    ⟨world, []⟩
  rw [h] at hrun
  -- Every access has one of the permitted forms, and its constructor says which.
  obtain ⟨more, hmore, hin⟩ := hrun
  rw [List.nil_append] at hmore
  rw [hmore]
  refine ⟨?_, ?_, ?_, ?_⟩
  · intro path mem
    generalize haccess : Access.read path = access at mem
    cases hin access mem with
    | readSource valid =>
        obtain rfl := Access.read.inj haccess
        exact .inl (hbelow _ valid _)
    | readOutput valid =>
        obtain rfl := Access.read.inj haccess
        exact .inr (hbelow _ valid _)
    | _ => cases haccess
  · intro path mem
    generalize haccess : Access.write path = access at mem
    cases hin access mem with
    | write valid =>
        obtain rfl := Access.write.inj haccess
        exact hbelow _ valid _
    | _ => cases haccess
  · intro path mem
    generalize haccess : Access.createDir path = access at mem
    cases hin access mem with
    | createDir within =>
        obtain rfl := Access.createDir.inj haccess
        exact within
    | _ => cases haccess
  · rintro rfl
    -- A copy that succeeds has verified what it wrote.
    rw [copyVerifiedResidualsAt] at h
    generalize copyResiduals shown s fs sourceDir outputDir (tableSources table) ⟨world, []⟩ =
      after at h
    obtain ⟨copied, run'⟩ := after
    cases copied with
    | error e => cases h
    | ok =>
        have hverify : verifyResidualsAt shown s fs manifest table outputDir run' =
          (.ok (), run) := h
        obtain ⟨hresult, hworld⟩ :=
          verifyResidualsAt_refines shown s fs manifest table outputDir run'
        rw [hverify] at hresult hworld
        obtain ⟨hdistinct, hnames⟩ := verifyResiduals_listed hresult.symm
        refine ⟨hdistinct, hnames, ?_⟩
        intro residual mem
        have hfound := (verifyResiduals_inv hresult.symm).2 residual mem
        rw [FileSystem.read_dirAt] at hfound
        rw [hworld]
        exact hfound

end Copy

end Libdeno.Snapshot
