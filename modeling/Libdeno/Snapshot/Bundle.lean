import Libdeno.Snapshot.Manifest

/-!
# Libdeno.Snapshot.Bundle

A snapshot bundle as files in a directory: the exporter that writes one, and the checks of
the importer, on the bundle and on its copy. Directories are maps from the names that are
joined to their path to what a read of that file gives.
-/

namespace Libdeno.Snapshot

open Lines

/-! ### Files -/

/-- A directory: what is in the file of each name, or the error of opening it. -/
abbrev Dir := Str → Except String (List UInt8)

/-- `isize::MAX`, which the length of no vector exceeds. -/
def isizeMax : Nat := 2 ^ 63 - 1

/-- `fs::read`. -/
def Dir.read (dir : Dir) (name : Str) : Except String (List UInt8) :=
  match dir name with
  | .error e => .error e
  | .ok bytes => if isizeMax < bytes.length then .error "out of memory" else .ok bytes

/-- `fs::write`. -/
def Dir.write (dir : Dir) (name : Str) (bytes : List UInt8) : Dir :=
  fun other => if other = name then .ok bytes else dir other

@[simp] theorem Dir.write_same (dir : Dir) (name : Str) (bytes : List UInt8) :
    dir.write name bytes name = .ok bytes := by
  rw [Dir.write, if_pos rfl]

@[simp] theorem Dir.write_other {name other : Str} (h : other ≠ name) (dir : Dir)
    (bytes : List UInt8) : dir.write name bytes other = dir other := by
  rw [Dir.write, if_neg h]

theorem Dir.read_inv {dir : Dir} {name : Str} {bytes : List UInt8}
    (h : dir.read name = .ok bytes) : dir name = .ok bytes ∧ bytes.length ≤ isizeMax := by
  rw [Dir.read] at h
  split at h
  · cases h
  · rename_i found heq
    split at h
    · cases h
    · cases h
      exact ⟨heq, by omega⟩

/-- Files with one content are read alike. -/
theorem Dir.read_congr {dir other : Dir} {name : Str} (h : dir name = other name) :
    dir.read name = other.read name := by
  rw [Dir.read, Dir.read, h]

/-- `String::from_utf8_lossy`; `lossy` is what it makes of bytes that are not UTF-8. -/
def fromUtf8Lossy (lossy : List UInt8 → Str) (bytes : List UInt8) : Str :=
  (decodeUtf8 bytes).getD (lossy bytes)

/-- `MANIFEST_FILE`. -/
def manifestFile : Str := lit "libdeno-snapshot.manifest"

/-- `SNAPSHOT_FILE`. -/
def snapshotFile : Str := lit "CLI_SNAPSHOT.bin"

/-- `TABLE_FILE`. -/
def tableFile : Str := lit "EXTENSION_RESIDUAL_SOURCES.rs"

/-! ### The checks -/

section Checks

variable (shown : Char → Bool)

/-- `validate_residual_name`. -/
def validateResidualName (name : Str) : Except String Unit :=
  let quoted := String.ofList (debug shown name)
  let normalized := normalize name
  if name = [] then .error "residual name is empty"
  else if normalized.head? = some '/' then .error s!"residual name {quoted} is absolute"
  else if (normalized.splitOn '/').any
      (fun component => component = lit ".." || component = lit "." || component = []) then
    .error s!"residual name {quoted} is not a plain relative path"
  else if ':' ∈ normalized then .error s!"residual name {quoted} contains ':'"
  else .ok ()

/-- One residual of `describe_residuals`. -/
def describeResidual (dir : Dir) (name : Str) : Except String Residual :=
  match validateResidualName shown name with
  | .error e => .error e
  | .ok () =>
      match dir.read name with
      | .error e => .error s!"cannot read residual source {String.ofList name}: {e}"
      | .ok bytes => .ok { name, bytes := bytes.length, hash := fingerprint bytes }

/-- The descriptions of a list of residuals. -/
def describeNames (dir : Dir) : List Str → Except String (List Residual)
  | [] => .ok []
  | name :: names =>
      match describeResidual shown dir name with
      | .error e => .error e
      | .ok residual =>
          match describeNames dir names with
          | .error e => .error e
          | .ok residuals => .ok (residual :: residuals)

/-- `describe_residuals`. -/
def describeResiduals (table : Str) (dir : Dir) : Except String (List Residual) :=
  describeNames shown dir (sortDedup (tableSources table))

/-- One residual of `verify_residuals`. -/
def verifyResidual (dir : Dir) (residual : Residual) : Except String Unit :=
  match validateResidualName shown residual.name with
  | .error e => .error e
  | .ok () =>
      match dir.read residual.name with
      | .error e => .error s!"missing residual source {String.ofList residual.name}: {e}"
      | .ok bytes =>
          if bytes.length ≠ residual.bytes ∨ fingerprint bytes ≠ residual.hash then
            .error s!"residual source {String.ofList residual.name} does not match the manifest"
          else .ok ()

/-- The residuals of a manifest, one after the other. -/
def verifyEach (dir : Dir) : List Residual → Except String Unit
  | [] => .ok ()
  | residual :: residuals =>
      match verifyResidual shown dir residual with
      | .error e => .error e
      | .ok () => verifyEach dir residuals

/-- The comparison of the recorded residuals with those of the table. -/
def ResidualsListed (manifest : Manifest) (table : Str) : Prop :=
  sortDedup (manifest.residuals.map (·.name)) = sortDedup (tableSources table) ∧
    (sortDedup (manifest.residuals.map (·.name))).length = manifest.residuals.length

instance (manifest : Manifest) (table : Str) : Decidable (ResidualsListed manifest table) :=
  inferInstanceAs (Decidable (_ ∧ _))

/-- `verify_residuals`. -/
def verifyResiduals (manifest : Manifest) (table : Str) (dir : Dir) : Except String Unit :=
  if ¬ ResidualsListed manifest table then
    .error "residual source list does not match the residual table"
  else verifyEach shown dir manifest.residuals

/-- Copy files one after the other, each fetched when its turn comes. -/
def copyInto (fetch : Str → Except String (List UInt8)) : List Str → Dir → Except String Dir
  | [], output => .ok output
  | name :: names, output =>
      match fetch name with
      | .error e => .error e
      | .ok bytes => copyInto fetch names (output.write name bytes)

/-- One residual of `copy_verified_residuals`. -/
def fetchResidual (source : Dir) (name : Str) : Except String (List UInt8) :=
  match validateResidualName shown name with
  | .error e => .error e
  | .ok () =>
      match source name with
      | .error e => .error s!"does not contain the residual source {String.ofList name}: {e}"
      | .ok bytes => .ok bytes

/-- `copy_verified_residuals`: the output directory with the residuals in it. -/
def copyVerifiedResiduals (manifest : Manifest) (table : Str) (source output : Dir) :
    Except String Dir :=
  match copyInto (fetchResidual shown source) (tableSources table) output with
  | .error e => .error e
  | .ok output =>
      match verifyResiduals shown manifest table output with
      | .error e => .error e
      | .ok () => .ok output

end Checks

/-- A field of the identity that is compared. -/
structure IdentityField where
  field : String
  bundle : Str
  here : Str

/-- The comparisons of two identities, in order. -/
def identityFields (found expected : Identity) : List IdentityField :=
  [⟨"libdeno", found.libdeno, expected.libdeno⟩, ⟨"target", found.target, expected.target⟩,
    ⟨"v8", found.v8, expected.v8⟩, ⟨"typescript", found.typescript, expected.typescript⟩,
    ⟨"deno_core", found.denoCore, expected.denoCore⟩,
    ⟨"deno_runtime", found.denoRuntime, expected.denoRuntime⟩]

/-- The check of one file's length and hash. -/
def verifyFile (name : String) (size : Nat) (hash : Str) (bytes : List UInt8) :
    Except String Unit :=
  if bytes.length ≠ size ∨ fingerprint bytes ≠ hash then
    .error s!"{name} does not match the manifest (expected {size} bytes, hash {String.ofList hash}; found {bytes.length} bytes, hash {String.ofList (fingerprint bytes)})"
  else .ok ()

/-- `verify`. -/
def verify (manifest : Manifest) (expected : Identity) (snapshot table : List UInt8) :
    Except String Unit :=
  match (identityFields manifest.identity expected).find? (fun f => f.bundle ≠ f.here) with
  | some f =>
      .error s!"bundle was built with {f.field}={String.ofList f.bundle}, this build needs {f.field}={String.ofList f.here}"
  | none =>
      match verifyFile "snapshot" manifest.snapshotBytes manifest.snapshotHash snapshot with
      | .error e => .error e
      | .ok () => verifyFile "residual table" manifest.tableBytes manifest.tableHash table

/-! ### The exporter -/

/-- One residual of `export_snapshot_bundle`. -/
def fetchExported (source : Dir) (name : Str) : Except String (List UInt8) :=
  match source name with
  | .error e => .error s!"failed to export residual source {String.ofList name}: {e}"
  | .ok bytes => .ok bytes

/-- `export_snapshot_bundle`, of the directory the snapshot and the table are in. -/
def exportSnapshotBundle (shown : Char → Bool) (lossy : List UInt8 → Str)
    (identity : Identity) (source bundle : Dir) : Except String Dir :=
  match source.read snapshotFile, source.read tableFile with
  | .ok snapshot, .ok tableBytes =>
      let table := fromUtf8Lossy lossy tableBytes
      match copyInto (fetchExported source) (tableSources table) bundle with
      | .error e => .error e
      | .ok bundle =>
          let bundle := (bundle.write snapshotFile snapshot).write tableFile tableBytes
          match describeResiduals shown table source with
          | .error e => .error s!"failed to fingerprint exported residual source: {e}"
          | .ok residuals =>
              let manifest := { describe identity snapshot tableBytes with residuals }
              .ok (bundle.write manifestFile (encodeUtf8 (render manifest)))
  | .error e, _ | _, .error e => .error e

/-! ### What the checks establish -/

section Accepted

variable {shown : Char → Bool}

theorem verifyFile_inv {name : String} {size : Nat} {hash : Str} {bytes : List UInt8}
    (h : verifyFile name size hash bytes = .ok ()) :
    bytes.length = size ∧ fingerprint bytes = hash := by
  rw [verifyFile] at h
  split at h
  · cases h
  · rename_i hsame
    simp only [not_or, not_not] at hsame
    exact hsame

theorem verifyFile_self (name : String) (bytes : List UInt8) :
    verifyFile name bytes.length (fingerprint bytes) bytes = .ok () := by
  rw [verifyFile, if_neg (by simp)]

/-- A bundle that is accepted has the importer's identity and the files it states. -/
theorem verify_inv {manifest : Manifest} {expected : Identity} {snapshot table : List UInt8}
    (h : verify manifest expected snapshot table = .ok ()) :
    manifest.identity = expected ∧ snapshot.length = manifest.snapshotBytes ∧
      fingerprint snapshot = manifest.snapshotHash ∧ table.length = manifest.tableBytes ∧
      fingerprint table = manifest.tableHash := by
  rw [verify] at h
  split at h
  · cases h
  · rename_i hnone
    have hfields : ∀ f ∈ identityFields manifest.identity expected, f.bundle = f.here := by
      intro f mem
      simpa using List.find?_eq_none.mp hnone f mem
    simp only [identityFields, List.forall_mem_cons] at hfields
    obtain ⟨hlibdeno, htarget, hv8, htypescript, hcore, hruntime, _⟩ := hfields
    have hidentity : manifest.identity = expected := by
      cases hfound : manifest.identity
      cases expected
      rw [hfound] at hlibdeno htarget hv8 htypescript hcore hruntime
      simp only at hlibdeno htarget hv8 htypescript hcore hruntime
      rw [hlibdeno, htarget, hv8, htypescript, hcore, hruntime]
    split at h
    · cases h
    · rename_i hsnapshot
      obtain ⟨hsize, hhash⟩ := verifyFile_inv hsnapshot
      obtain ⟨hsize', hhash'⟩ := verifyFile_inv h
      exact ⟨hidentity, hsize, hhash, hsize', hhash'⟩

/-- What `describe` states of its own files is accepted. -/
theorem verify_describe (identity : Identity) (snapshot table : List UInt8)
    (residuals : List Residual) :
    verify { describe identity snapshot table with residuals } identity snapshot table =
      .ok () := by
  have hnone : (identityFields identity identity).find? (fun f => f.bundle ≠ f.here) = none := by
    rw [List.find?_eq_none]
    simp [identityFields]
  rw [verify]
  simp only [describe, hnone, verifyFile_self]

theorem verifyResidual_inv {dir : Dir} {residual : Residual}
    (h : verifyResidual shown dir residual = .ok ()) :
    validateResidualName shown residual.name = .ok () ∧
      ∃ bytes, dir.read residual.name = .ok bytes ∧ bytes.length = residual.bytes ∧
        fingerprint bytes = residual.hash := by
  rw [verifyResidual] at h
  split at h
  · cases h
  · rename_i hname
    split at h
    · cases h
    · rename_i bytes hread
      split at h
      · cases h
      · rename_i hsame
        simp only [not_or, not_not] at hsame
        exact ⟨hname, bytes, hread, hsame⟩

theorem verifyEach_iff {dir : Dir} {residuals : List Residual} :
    verifyEach shown dir residuals = .ok () ↔
      ∀ residual ∈ residuals, verifyResidual shown dir residual = .ok () := by
  induction residuals with
  | nil => simp [verifyEach]
  | cons residual residuals ih =>
      rw [verifyEach, List.forall_mem_cons, ← ih]
      split
      · rename_i e heq
        constructor
        · intro h
          cases h
        · intro h
          rw [h.1] at heq
          cases heq
      · rename_i heq
        exact ⟨fun h => ⟨heq, h⟩, fun h => h.2⟩

/-- Residuals that are accepted are the table's, each with the file it states. -/
theorem verifyResiduals_inv {manifest : Manifest} {table : Str} {dir : Dir}
    (h : verifyResiduals shown manifest table dir = .ok ()) :
    sortDedup (manifest.residuals.map (·.name)) = sortDedup (tableSources table) ∧
      ∀ residual ∈ manifest.residuals,
        ∃ bytes, dir.read residual.name = .ok bytes ∧ bytes.length = residual.bytes ∧
          fingerprint bytes = residual.hash := by
  rw [verifyResiduals] at h
  split at h
  · cases h
  · rename_i hlisted
    refine ⟨(not_not.mp hlisted).1, ?_⟩
    intro residual mem
    exact (verifyResidual_inv (verifyEach_iff.mp h residual mem)).2

/-! ### What the exporter describes -/

/-- A described residual is its file's name, length and hash, and is accepted wherever that
file has the same content. -/
theorem describeResidual_inv {dir : Dir} {name : Str} {residual : Residual}
    (h : describeResidual shown dir name = .ok residual) :
    residual.name = name ∧ validateResidualName shown name = .ok () ∧
      ∃ bytes, dir.read name = .ok bytes ∧ residual.bytes = bytes.length ∧
        residual.hash = fingerprint bytes := by
  rw [describeResidual] at h
  split at h
  · cases h
  · rename_i hname
    split at h
    · cases h
    · rename_i bytes hread
      cases h
      exact ⟨rfl, hname, bytes, hread, rfl, rfl⟩

theorem describeNames_inv {dir : Dir} {names : List Str} {residuals : List Residual}
    (h : describeNames shown dir names = .ok residuals) :
    residuals.map (·.name) = names ∧
      ∀ residual ∈ residuals, describeResidual shown dir residual.name = .ok residual := by
  induction names generalizing residuals with
  | nil =>
      cases h
      exact ⟨rfl, by simp⟩
  | cons name names ih =>
      rw [describeNames] at h
      split at h
      · cases h
      · rename_i residual hresidual
        split at h
        · cases h
        · rename_i rest hrest
          cases h
          obtain ⟨hnames, hdescribed⟩ := ih hrest
          have hname := (describeResidual_inv hresidual).1
          refine ⟨by rw [List.map_cons, hname, hnames], ?_⟩
          intro other mem
          rcases List.mem_cons.mp mem with rfl | mem
          · rw [hname]
            exact hresidual
          · exact hdescribed other mem

/-- Valid names of files that can be read are described. -/
theorem describeNames_total {dir : Dir} {names : List Str}
    (valid : ∀ name ∈ names, validateResidualName shown name = .ok ())
    (readable : ∀ name ∈ names, ∃ bytes, dir.read name = .ok bytes) :
    ∃ residuals, describeNames shown dir names = .ok residuals := by
  induction names with
  | nil => exact ⟨[], rfl⟩
  | cons name names ih =>
      obtain ⟨residuals, hrest⟩ := ih (fun n mem => valid n (List.mem_cons_of_mem _ mem))
        (fun n mem => readable n (List.mem_cons_of_mem _ mem))
      obtain ⟨bytes, hread⟩ := readable name List.mem_cons_self
      have hname := valid name List.mem_cons_self
      have hresidual : describeResidual shown dir name =
          .ok { name, bytes := bytes.length, hash := fingerprint bytes } := by
        rw [describeResidual, hname]
        simp only [hread]
      refine ⟨{ name, bytes := bytes.length, hash := fingerprint bytes } :: residuals, ?_⟩
      rw [describeNames, hresidual]
      simp only [hrest]

/-- The residuals described in one directory are accepted in every directory that has the
table's sources with the same content. -/
theorem verifyResiduals_described {manifest : Manifest} {table : Str} {dir other : Dir}
    (described : describeResiduals shown table dir = .ok manifest.residuals)
    (same : ∀ name ∈ tableSources table, other name = dir name) :
    verifyResiduals shown manifest table other = .ok () := by
  obtain ⟨hnames, hdescribed⟩ := describeNames_inv described
  have hlength : (sortDedup (tableSources table)).length = manifest.residuals.length := by
    rw [← hnames, List.length_map]
  have heach : verifyEach shown other manifest.residuals = .ok () := by
    rw [verifyEach_iff]
    intro residual mem
    obtain ⟨_, hvalid, bytes, hread, hbytes, hhash⟩ :=
      describeResidual_inv (hdescribed residual mem)
    have hsource : residual.name ∈ tableSources table := by
      refine mem_sortDedup ?_
      rw [← hnames]
      exact List.mem_map_of_mem mem
    have hother : other.read residual.name = .ok bytes := by
      rw [Dir.read_congr (same _ hsource), hread]
    rw [verifyResidual, hvalid]
    simp only [hother, hbytes, hhash]
    rw [if_neg (by simp)]
  have hlisted : ResidualsListed manifest table := by
    rw [ResidualsListed, hnames, sortDedup_idem]
    exact ⟨rfl, hlength⟩
  rw [verifyResiduals, if_neg (not_not.mpr hlisted)]
  exact heach

/-! ### Copies -/

/-- Every file that was asked for is copied; no other is touched. -/
theorem copyInto_total {fetch : Str → Except String (List UInt8)} {names : List Str}
    (found : ∀ name ∈ names, ∃ bytes, fetch name = .ok bytes) (output : Dir) :
    ∃ copy, copyInto fetch names output = .ok copy ∧
      (∀ name ∈ names, copy name = fetch name) ∧ ∀ name ∉ names, copy name = output name := by
  induction names generalizing output with
  | nil => exact ⟨output, rfl, by simp, by simp⟩
  | cons name names ih =>
      obtain ⟨bytes, hfetch⟩ := found name List.mem_cons_self
      obtain ⟨copy, hcopy, hin, hout⟩ :=
        ih (fun n mem => found n (List.mem_cons_of_mem _ mem)) (output.write name bytes)
      refine ⟨copy, ?_, ?_, ?_⟩
      · rw [copyInto, hfetch]
        exact hcopy
      · intro other mem
        by_cases hlater : other ∈ names
        · exact hin other hlater
        · rcases List.mem_cons.mp mem with rfl | mem
          · rw [hout other hlater, Dir.write_same, hfetch]
          · exact absurd mem hlater
      · intro other hnot
        rw [hout other (fun mem => hnot (List.mem_cons_of_mem _ mem)),
          Dir.write_other (by rintro rfl; exact hnot List.mem_cons_self)]

theorem fetchResidual_ok {source : Dir} {name : Str} {bytes : List UInt8}
    (valid : validateResidualName shown name = .ok ()) (h : source name = .ok bytes) :
    fetchResidual shown source name = .ok bytes := by
  rw [fetchResidual, valid]
  simp only [h]

theorem fetchExported_ok {source : Dir} {name : Str} {bytes : List UInt8}
    (h : source name = .ok bytes) : fetchExported source name = .ok bytes := by
  rw [fetchExported, h]

/-! ### Plain names -/

/-- A file name a bundle can carry: a valid residual name that `{:?}` prints as it is, other
than that of the manifest. -/
structure PlainName (shown : Char → Bool) (name : Str) : Prop where
  valid : validateResidualName shown name = .ok ()
  unescaped : Unescaped shown name
  other : name ≠ manifestFile

theorem validateResidualName_inv {name : Str}
    (h : validateResidualName shown name = .ok ()) :
    name ≠ [] ∧ (normalize name).head? ≠ some '/' := by
  rw [validateResidualName] at h
  split at h
  · cases h
  · rename_i hempty
    split at h
    · cases h
    · rename_i hrelative
      exact ⟨hempty, hrelative⟩

theorem PlainName.normalize {name : Str} (h : PlainName shown name) : normalize name = name :=
  normalize_eq_self h.unescaped.plain.2.1

theorem PlainName.written {rel : Str} (h : PlainName shown (Snapshot.normalize rel)) :
    Written shown rel := by
  refine ⟨h.unescaped, ?_⟩
  have hrelative := (validateResidualName_inv h.valid).2
  rw [h.normalize] at hrelative
  exact hrelative

/-- A described residual with a plain name can be rendered. -/
theorem describeResidual_clean {dir : Dir} {name : Str} {residual : Residual}
    (plain : PlainName shown name) (h : describeResidual shown dir name = .ok residual) :
    residual.Clean := by
  obtain ⟨rfl, hvalid, bytes, hread, hbytes, hhash⟩ := describeResidual_inv h
  have hshort := (Dir.read_inv hread).2
  obtain ⟨_, _, htab, hline⟩ := plain.unescaped.plain
  constructor
  · exact ⟨(validateResidualName_inv hvalid).1, htab, hline⟩
  · rw [hbytes]
    simp only [isizeMax, usizeBound] at hshort ⊢
    omega
  · rw [hhash]
    refine ⟨.fingerprint bytes, fingerprint_ne (by decide) bytes, ?_⟩
    intro hnil
    have hlength := congrArg List.length hnil
    simp only [fingerprint, List.length_append, List.length_nil] at hlength
    have hdigits : (Nat.toDigits 16 (fnv1a bytes).toNat).length = 0 := by omega
    exact Nat.toDigits_ne_nil (List.length_eq_zero_iff.mp hdigits)

/-! ### The names of the build script -/

/-- The name `transpile_residual_source` gives a specifier's file. -/
def residualName (specifier : Str) : Str :=
  lit "residual_sources" ++ '/' ::
    (specifier.map (fun c => if c.isAlphanum then c else '_') ++ lit ".js")

theorem escapeDebug_printable {c : Char} (h : 32 ≤ c.toNat ∧ c.toNat < 127)
    (hslash : c ≠ '\\') (hquote : c ≠ '"') : escapeDebug shown c = [c] := by
  have hcontrol : ∀ d : Char, d.toNat < 32 → c ≠ d := by
    rintro d hd rfl
    omega
  have hplain : ((32 ≤ c.toNat && c.toNat < 127) || (127 < c.toNat && shown c)) = true := by
    simp [h.1, h.2]
  rw [escapeDebug, if_neg (hcontrol _ (by decide)), if_neg (hcontrol _ (by decide)),
    if_neg (hcontrol _ (by decide)), if_neg (hcontrol _ (by decide)), if_neg hslash,
    if_neg hquote, if_pos hplain]

/-- The characters of a residual's file name. -/
theorem mem_residualName {specifier : Str} {c : Char} (h : c ∈ residualName specifier) :
    c.isAlphanum = true ∨ c = '_' ∨ c = '/' ∨ c = '.' := by
  have hfolder : ∀ c ∈ lit "residual_sources", c.isAlphanum = true ∨ c = '_' :=
    forall_mem_of_all (by decide)
  have hsuffix : ∀ c ∈ lit ".js", c.isAlphanum = true ∨ c = '.' :=
    forall_mem_of_all (by decide)
  rcases List.mem_append.mp h with mem | mem
  · rcases hfolder c mem with hc | hc
    · exact .inl hc
    · exact .inr (.inl hc)
  · rcases List.mem_cons.mp mem with rfl | mem
    · exact .inr (.inr (.inl rfl))
    · rcases List.mem_append.mp mem with mem | mem
      · obtain ⟨d, _, rfl⟩ := List.mem_map.mp mem
        split
        · rename_i hd
          exact .inl hd
        · exact .inr (.inl rfl)
      · rcases hsuffix c mem with hc | hc
        · exact .inl hc
        · exact .inr (.inr (.inr hc))

/-- They are printable, and none of them is special. -/
theorem residualName_char {specifier : Str} {c : Char} (h : c ∈ residualName specifier) :
    32 ≤ c.toNat ∧ c.toNat < 127 ∧ c ≠ '\\' ∧ c ≠ '"' ∧ c ≠ ':' := by
  rcases mem_residualName h with hc | rfl | rfl | rfl
  · have hrange : 32 ≤ c.toNat ∧ c.toNat < 127 := by
      simp [Char.isAlphanum, Char.isAlpha, Char.isUpper, Char.isLower, Char.isDigit,
        UInt32.le_iff_toNat_le] at hc
      omega
    have hspecial : ∀ d : Char, d.isAlphanum = false → c ≠ d := by
      rintro d hd rfl
      rw [hd] at hc
      cases hc
    exact ⟨hrange.1, hrange.2, hspecial _ (by decide), hspecial _ (by decide),
      hspecial _ (by decide)⟩
  · decide
  · decide
  · decide

/-- The build script's residuals have plain names, whatever their specifiers. -/
theorem residualName_plain (specifier : Str) : PlainName shown (residualName specifier) := by
  have hunescaped : Unescaped shown (residualName specifier) := by
    intro c mem
    obtain ⟨hlow, hhigh, hslash, hquote, _⟩ := residualName_char mem
    exact escapeDebug_printable ⟨hlow, hhigh⟩ hslash hquote
  have hself : normalize (residualName specifier) = residualName specifier :=
    normalize_eq_self hunescaped.plain.2.1
  refine ⟨?_, hunescaped, ?_⟩
  · have hfolder : '/' ∉ lit "residual_sources" := by decide
    have hfile : '/' ∉ specifier.map (fun c => if c.isAlphanum then c else '_') ++ lit ".js" := by
      intro mem
      rcases List.mem_append.mp mem with mem | mem
      · obtain ⟨d, _, hd⟩ := List.mem_map.mp mem
        split at hd
        · rename_i halnum
          rw [hd] at halnum
          cases halnum
        · cases hd
      · revert mem
        decide
    have hsplit : (residualName specifier).splitOn '/' = [lit "residual_sources",
        specifier.map (fun c => if c.isAlphanum then c else '_') ++ lit ".js"] := by
      rw [residualName, List.splitOn_append_cons_self_of_not_mem hfolder,
        List.splitOn_eq_singleton hfile]
    -- The file name ends in `.js`, so it is no component that is refused.
    have hlong : ∀ component ∈ [lit "..", lit ".", []],
        specifier.map (fun c => if c.isAlphanum then c else '_') ++ lit ".js" ≠ component := by
      intro component mem heq
      have hshort : ∀ component ∈ [lit "..", lit ".", []], component.length < 3 := by decide
      have hlength := congrArg List.length heq
      have hsuffix : (lit ".js").length = 3 := by decide
      rw [List.length_append, hsuffix] at hlength
      have := hshort component mem
      omega
    have hcolon : ':' ∉ residualName specifier := by
      intro mem
      exact (residualName_char mem).2.2.2.2 rfl
    have hne : residualName specifier ≠ [] := by simp [residualName]
    have hhead : (residualName specifier).head? ≠ some '/' := by
      have hfirst : (lit "residual_sources").head? = some 'r' := by decide
      rw [residualName, List.head?_append, hfirst]
      simp
    have hany : ¬ ((residualName specifier).splitOn '/').any (fun component =>
        component = lit ".." || component = lit "." || component = []) = true := by
      have hplain : ∀ component ∈ [lit "..", lit ".", []], lit "residual_sources" ≠ component := by
        decide
      simp only [List.forall_mem_cons] at hplain hlong
      simp [hsplit, hplain.1, hplain.2.1, hplain.2.2.1, hlong.1, hlong.2.1, hlong.2.2.1]
    rw [validateResidualName, hself, if_neg hne, if_neg hhead, if_neg hany, if_neg hcolon]
  · intro heq
    have hslash : '/' ∈ residualName specifier := by simp [residualName]
    have hnone : '/' ∉ manifestFile := by decide
    exact hnone (heq ▸ hslash)

/-! ### The round trip -/

/-- What the exporter finds: a table it wrote for entries with plain names, the sources of
these entries, and a snapshot. -/
structure Exportable (shown : Char → Bool) (js esm : List Entry) (identity : Identity)
    (source : Dir) (snapshot : List UInt8) : Prop where
  plain : ∀ entry ∈ js ++ esm, PlainName shown (normalize entry.2)
  clean : identity.Clean
  snapshot : source.read snapshotFile = .ok snapshot
  table : source.read tableFile = .ok (encodeUtf8 (residualTable shown js esm))
  sources : ∀ entry ∈ js ++ esm, ∃ bytes, source.read (normalize entry.2) = .ok bytes

variable {js esm : List Entry} {identity : Identity} {source : Dir} {snapshot : List UInt8}

theorem Exportable.tableSources (h : Exportable shown js esm identity source snapshot) :
    tableSources (residualTable shown js esm) =
      (sortEntries js ++ sortEntries esm).map fun entry => normalize entry.2 :=
  tableSources_residualTable fun entry mem => (h.plain entry mem).written

theorem Exportable.name (h : Exportable shown js esm identity source snapshot) {name : Str}
    (mem : name ∈ Snapshot.tableSources (residualTable shown js esm)) :
    PlainName shown name ∧ ∃ bytes, source.read name = .ok bytes := by
  rw [h.tableSources] at mem
  obtain ⟨entry, hentry, rfl⟩ := List.mem_map.mp mem
  have hmem : entry ∈ js ++ esm := by
    rcases List.mem_append.mp hentry with hentry | hentry
    · exact List.mem_append_left _ (mem_sortEntries.mp hentry)
    · exact List.mem_append_right _ (mem_sortEntries.mp hentry)
  exact ⟨h.plain entry hmem, h.sources entry hmem⟩

/-- The residuals are described, and the manifest can be rendered. -/
theorem Exportable.described (h : Exportable shown js esm identity source snapshot) :
    ∃ residuals,
      describeResiduals shown (residualTable shown js esm) source = .ok residuals ∧
      Manifest.Clean { describe identity snapshot (encodeUtf8 (residualTable shown js esm)) with
        residuals } := by
  have htotal : ∃ residuals,
      describeResiduals shown (residualTable shown js esm) source = .ok residuals :=
    describeNames_total (fun name mem => (h.name (mem_sortDedup mem)).1.valid)
      (fun name mem => (h.name (mem_sortDedup mem)).2)
  obtain ⟨residuals, hdescribed⟩ := htotal
  refine ⟨residuals, hdescribed, ?_⟩
  have hsnapshot := (Dir.read_inv h.snapshot).2
  have htable := (Dir.read_inv h.table).2
  simp only [isizeMax] at hsnapshot htable
  constructor
  · exact h.clean
  · simp only [describe, usizeBound]
    omega
  · exact .fingerprint snapshot
  · simp only [describe, usizeBound]
    omega
  · exact .fingerprint _
  · intro residual mem
    obtain ⟨hnames, hall⟩ := describeNames_inv hdescribed
    have hsource : residual.name ∈ Snapshot.tableSources (residualTable shown js esm) := by
      refine mem_sortDedup ?_
      rw [← hnames]
      exact List.mem_map_of_mem mem
    exact describeResidual_clean (h.name hsource).1 (hall residual mem)

/-- The exported bundle has the manifest, the snapshot, the table and every source. -/
theorem Exportable.exported (h : Exportable shown js esm identity source snapshot)
    (lossy : List UInt8 → Str) {residuals : List Residual}
    (described : describeResiduals shown (residualTable shown js esm) source = .ok residuals)
    (bundle : Dir) :
    ∃ exported, exportSnapshotBundle shown lossy identity source bundle = .ok exported ∧
      exported manifestFile = .ok (encodeUtf8 (render
        { describe identity snapshot (encodeUtf8 (residualTable shown js esm)) with
          residuals })) ∧
      exported.read snapshotFile = .ok snapshot ∧
      exported.read tableFile = .ok (encodeUtf8 (residualTable shown js esm)) ∧
      ∀ name ∈ Snapshot.tableSources (residualTable shown js esm),
        exported name = source name := by
  have htext : fromUtf8Lossy lossy (encodeUtf8 (residualTable shown js esm)) =
      residualTable shown js esm := by
    rw [fromUtf8Lossy, decodeUtf8_encodeUtf8]
    rfl
  have hfound : ∀ name ∈ Snapshot.tableSources (residualTable shown js esm),
      ∃ bytes, fetchExported source name = .ok bytes := by
    intro name mem
    obtain ⟨_, bytes, hread⟩ := h.name mem
    exact ⟨bytes, fetchExported_ok (Dir.read_inv hread).1⟩
  obtain ⟨copied, hcopied, hin, _⟩ := copyInto_total hfound bundle
  have hsnapshot : snapshotFile ≠ tableFile ∧ snapshotFile ≠ manifestFile := by decide
  have htable : tableFile ≠ manifestFile := by decide
  have hexport : exportSnapshotBundle shown lossy identity source bundle =
      .ok (((copied.write snapshotFile snapshot).write tableFile
        (encodeUtf8 (residualTable shown js esm))).write manifestFile (encodeUtf8 (render
          { describe identity snapshot (encodeUtf8 (residualTable shown js esm)) with
            residuals }))) := by
    rw [exportSnapshotBundle, h.snapshot, h.table]
    simp only [htext, hcopied, described]
  refine ⟨_, hexport, ?_, ?_, ?_, ?_⟩
  · rw [Dir.write_same]
  · rw [← h.snapshot]
    refine Dir.read_congr ?_
    rw [Dir.write_other hsnapshot.2, Dir.write_other hsnapshot.1, Dir.write_same,
      (Dir.read_inv h.snapshot).1]
  · rw [← h.table]
    refine Dir.read_congr ?_
    rw [Dir.write_other htable, Dir.write_same, (Dir.read_inv h.table).1]
  · intro name mem
    obtain ⟨hplain, bytes, hread⟩ := h.name mem
    rw [Dir.write_other hplain.other]
    by_cases hname : name = tableFile
    · rw [hname, Dir.write_same, (Dir.read_inv h.table).1]
    · rw [Dir.write_other hname]
      by_cases hname : name = snapshotFile
      · rw [hname, Dir.write_same, (Dir.read_inv h.snapshot).1]
      · have hsource := (Dir.read_inv hread).1
        rw [Dir.write_other hname, hin name mem, fetchExported_ok hsource, hsource]

/-- Whatever is exported is read back as it was written and accepted, in the bundle and in
its copy; and whatever is accepted has the importer's identity and the snapshot, table and
residuals its manifest states. -/
theorem snapshot_bundle_round_trip (shown : Char → Bool) (lossy : List UInt8 → Str) :
    (∀ js esm identity source snapshot, Exportable shown js esm identity source snapshot →
      ∀ bundle output : Dir,
      let table := residualTable shown js esm
      tableSources table =
        (sortEntries js ++ sortEntries esm).map (fun entry => normalize entry.2) ∧
      ∃ residuals exported, describeResiduals shown table source = .ok residuals ∧
        exportSnapshotBundle shown lossy identity source bundle = .ok exported ∧
        let manifest := { describe identity snapshot (encodeUtf8 table) with residuals }
        exported manifestFile = .ok (encodeUtf8 (render manifest)) ∧
        parse shown (render manifest) = .ok manifest ∧
        exported.read snapshotFile = .ok snapshot ∧
        exported.read tableFile = .ok (encodeUtf8 table) ∧
        verify manifest identity snapshot (encodeUtf8 table) = .ok () ∧
        verifyResiduals shown manifest table exported = .ok () ∧
        ∃ copy, copyVerifiedResiduals shown manifest table exported output = .ok copy ∧
          verifyResiduals shown manifest table copy = .ok ()) ∧
    (∀ manifest expected snapshot tableBytes table dir,
      verify manifest expected snapshot tableBytes = .ok () →
      verifyResiduals shown manifest table dir = .ok () →
      manifest.identity = expected ∧
      snapshot.length = manifest.snapshotBytes ∧
      fingerprint snapshot = manifest.snapshotHash ∧
      tableBytes.length = manifest.tableBytes ∧
      fingerprint tableBytes = manifest.tableHash ∧
      sortDedup (manifest.residuals.map (·.name)) = sortDedup (tableSources table) ∧
      ∀ residual ∈ manifest.residuals, ∃ bytes, dir.read residual.name = .ok bytes ∧
        bytes.length = residual.bytes ∧ fingerprint bytes = residual.hash) := by
  refine ⟨?_, ?_⟩
  · intro js esm identity source snapshot h bundle output table
    refine ⟨h.tableSources, ?_⟩
    obtain ⟨residuals, hdescribed, hclean⟩ := h.described
    obtain ⟨exported, hexported, hmanifest, hsnapshot, htable, hsame⟩ :=
      h.exported lossy hdescribed bundle
    refine ⟨residuals, exported, hdescribed, hexported, hmanifest, parse_render hclean,
      hsnapshot, htable, verify_describe identity snapshot _ residuals,
      verifyResiduals_described hdescribed hsame, ?_⟩
    have hfound : ∀ name ∈ tableSources table,
        fetchResidual shown exported name = source name ∧
          ∃ bytes, fetchResidual shown exported name = .ok bytes := by
      intro name mem
      obtain ⟨hplain, bytes, hread⟩ := h.name mem
      have hsource := (Dir.read_inv hread).1
      have hfetch : fetchResidual shown exported name = .ok bytes :=
        fetchResidual_ok hplain.valid (by rw [hsame name mem, hsource])
      exact ⟨by rw [hfetch, hsource], bytes, hfetch⟩
    obtain ⟨copy, hcopy, hin, _⟩ :=
      copyInto_total (fun name mem => (hfound name mem).2) output
    have hverified : verifyResiduals shown
        { describe identity snapshot (encodeUtf8 table) with residuals } table copy = .ok () :=
      verifyResiduals_described hdescribed
        fun name mem => by rw [hin name mem, (hfound name mem).1]
    refine ⟨copy, ?_, hverified⟩
    rw [copyVerifiedResiduals, hcopy]
    simp only
    rw [hverified]
  · intro manifest expected snapshot tableBytes table dir hverify hresiduals
    obtain ⟨hidentity, hsize, hhash, hsize', hhash'⟩ := verify_inv hverify
    obtain ⟨hnames, hall⟩ := verifyResiduals_inv hresiduals
    exact ⟨hidentity, hsize, hhash, hsize', hhash', hnames, hall⟩

end Accepted

/-- A build with one residual script, for an export that can be followed by hand. -/
def sampleEntry : Entry := (lit "ext:a", residualName (lit "ext:a"))

/-- Its identity. -/
def sampleIdentity : Identity :=
  ⟨lit "0.3.6", lit "t", lit "14", lit "6", lit "1", lit "2"⟩

/-- Its `OUT_DIR`. -/
def sampleSource : Dir :=
  Dir.write (Dir.write (Dir.write (fun _ => .error "not found") sampleEntry.2 [2])
    snapshotFile [1]) tableFile (encodeUtf8 (residualTable (fun _ => false) [sampleEntry] []))

theorem sample_exportable :
    Exportable (fun _ => false) [sampleEntry] [] sampleIdentity sampleSource [1] := by
  have hplain : PlainName (fun _ => false) sampleEntry.2 := residualName_plain _
  have hentries : ∀ entry ∈ [sampleEntry] ++ [], entry = sampleEntry := by
    intro entry mem
    exact List.mem_singleton.mp mem
  have hsnapshot : snapshotFile ≠ tableFile := by decide
  have hsource : sampleEntry.2 ≠ tableFile ∧ sampleEntry.2 ≠ snapshotFile := by
    decide
  have hread : ∀ {dir : Dir} {name : Str} {bytes : List UInt8}, dir name = .ok bytes →
      bytes.length ≤ isizeMax → dir.read name = .ok bytes := by
    intro dir name bytes heq hshort
    rw [Dir.read, heq]
    exact if_neg (by omega)
  constructor
  · intro entry mem
    rw [hentries entry mem, hplain.normalize]
    exact hplain
  · constructor <;> decide
  · refine hread ?_ (by decide)
    rw [sampleSource, Dir.write_other hsnapshot, Dir.write_same]
  · refine hread ?_ (by decide +kernel)
    rw [sampleSource, Dir.write_same]
  · intro entry mem
    rw [hentries entry mem, hplain.normalize]
    refine ⟨[2], hread ?_ (by decide)⟩
    rw [sampleSource, Dir.write_other hsource.1, Dir.write_other hsource.2, Dir.write_same]

/-- The sample is exported, and its copy accepted. -/
theorem snapshot_bundle_round_trip_sample : ∃ residuals exported copy,
    exportSnapshotBundle (fun _ => false) (fun _ => []) sampleIdentity sampleSource
      sampleSource = .ok exported ∧
    copyVerifiedResiduals (fun _ => false)
      { describe sampleIdentity [1] (encodeUtf8 (residualTable (fun _ => false) [sampleEntry] []))
        with residuals }
      (residualTable (fun _ => false) [sampleEntry] []) exported sampleSource = .ok copy := by
  obtain ⟨_, residuals, exported, _, hexported, _, _, _, _, _, _, copy, hcopy, _⟩ :=
    (snapshot_bundle_round_trip (fun _ => false) (fun _ => [])).1 _ _ _ _ _ sample_exportable
      sampleSource sampleSource
  exact ⟨residuals, exported, copy, hexported, hcopy⟩

end Libdeno.Snapshot
