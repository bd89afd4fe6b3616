import Libdeno.Snapshot.Bundle

/-!
# Libdeno.Snapshot.Generation

The part of `build.rs` that writes the residual sources: every lazy extension file that the
snapshot has not consumed is transpiled into a file of its own, which is wrapped if it is a
script, and entered in one of the two tables. The file is named after the specifier with every
character but the alphanumeric ones flattened to `_`. Two specifiers can be flattened alike;
the later file then overwrites the earlier one, whose entry includes the wrong source.
-/

namespace Libdeno.Snapshot

open Lines

/-! ### The generation -/

/-- `LazyExtensionFileKind`. -/
inductive LazyExtensionFileKind where
  | js
  | esm
  deriving DecidableEq, Repr

/-- A lazy extension file. -/
structure LazyExtensionFile where
  specifier : Str
  path : Str
  kind : LazyExtensionFileKind
  deriving DecidableEq

/-- What `create_runtime_snapshot` reports; no two files share a specifier. -/
structure SnapshotOutput where
  lazyExtensionFiles : List LazyExtensionFile
  consumedLazySpecifiers : List Str
  distinct : (lazyExtensionFiles.map (·.specifier)).Nodup

/-- What the build script uses of other crates and of the files of the extensions. A source
that cannot be read or transpiled ends the build. -/
structure Toolchain where
  readSource : Str → Option Str
  maybeTranspileSource : Str → Str → Option Str
  wrapLazyExtScript : Str → Str

/-- `OUT_DIR` and the entries of the two tables. -/
structure Generated where
  outDir : Dir
  residualJs : List Entry
  residualEsm : List Entry

/-- `fs::read_to_string`. -/
def Dir.readToString (dir : Dir) (name : Str) : Option Str :=
  match dir.read name with
  | .error _ => none
  | .ok bytes => decodeUtf8 bytes

section Generation

variable (tools : Toolchain)

/-- The transpiled source of a file. -/
def Toolchain.transpiled (file : LazyExtensionFile) : Option Str :=
  (tools.readSource file.path).bind (tools.maybeTranspileSource file.specifier)

/-- `transpile_residual_source`: `OUT_DIR` with the file in it, and its path. -/
def transpileResidualSource (outDir : Dir) (file : LazyExtensionFile) : Option (Dir × Str) :=
  match tools.transpiled file with
  | none => none
  | some transpiled =>
      let outPath := residualName file.specifier
      some (outDir.write outPath (encodeUtf8 transpiled), outPath)

/-- `wrap_residual_js_source`. -/
def wrapResidualJsSource (outDir : Dir) (path : Str) : Option Dir :=
  match outDir.readToString path with
  | none => none
  | some source => some (outDir.write path (encodeUtf8 (tools.wrapLazyExtScript source)))

/-- The body of the loop for a file that was not consumed. -/
def generateResidual (generated : Generated) (file : LazyExtensionFile) : Option Generated :=
  match transpileResidualSource tools generated.outDir file with
  | none => none
  | some (outDir, transpiledPath) =>
      match file.kind with
      | .js =>
          match wrapResidualJsSource tools outDir transpiledPath with
          | none => none
          | some outDir =>
              some { generated with
                outDir, residualJs := generated.residualJs ++ [(file.specifier, transpiledPath)] }
      | .esm =>
          some { generated with
            outDir, residualEsm := generated.residualEsm ++ [(file.specifier, transpiledPath)] }

/-- The residual loop of `create_cli_snapshot`. -/
def generateResiduals (consumed : List Str) :
    List LazyExtensionFile → Generated → Option Generated
  | [], generated => some generated
  | file :: files, generated =>
      if file.specifier ∈ consumed then generateResiduals consumed files generated
      else
        match generateResidual tools generated file with
        | none => none
        | some generated => generateResiduals consumed files generated

/-- The end of `create_cli_snapshot`: the residual sources, and the tables over them. -/
def createCliSnapshot (shown : Char → Bool) (output : SnapshotOutput) (outDir : Dir) :
    Option Generated :=
  match generateResiduals tools output.consumedLazySpecifiers output.lazyExtensionFiles
      { outDir, residualJs := [], residualEsm := [] } with
  | none => none
  | some generated =>
      let table := residualTable shown generated.residualJs generated.residualEsm
      some { generated with outDir := generated.outDir.write tableFile (encodeUtf8 table) }

/-! ### What each file should hold -/

/-- The source a file is loaded with: transpiled, and wrapped once if it is a script. -/
def Toolchain.ownSource (file : LazyExtensionFile) : Option Str :=
  match file.kind with
  | .js => (tools.transpiled file).map tools.wrapLazyExtScript
  | .esm => tools.transpiled file

/-- The entries of the table of one kind. -/
def Generated.entries (generated : Generated) : LazyExtensionFileKind → List Entry
  | .js => generated.residualJs
  | .esm => generated.residualEsm

/-- The path below `OUT_DIR` that the line of an entry includes. -/
def included (entry : Entry) : Str := normalize entry.2

/-- The files the snapshot has not consumed. -/
def SnapshotOutput.residuals (output : SnapshotOutput) : List LazyExtensionFile :=
  output.lazyExtensionFiles.filter fun file => file.specifier ∉ output.consumedLazySpecifiers

/-- Every entry of the tables includes the source of its own specifier. -/
def KeepOwnSource (output : SnapshotOutput) (generated : Generated) : Prop :=
  ∀ kind, ∀ entry ∈ sortEntries (generated.entries kind), ∃ file ∈ output.lazyExtensionFiles,
    file.specifier = entry.1 ∧ file.kind = kind ∧
      ∃ source, tools.ownSource file = some source ∧
        generated.outDir (included entry) = .ok (encodeUtf8 source)

/-- Residual files that are flattened to one name have one source. -/
def AgreeWhereFlattened (output : SnapshotOutput) : Prop :=
  ∀ file ∈ output.residuals, ∀ other ∈ output.residuals,
    residualName file.specifier = residualName other.specifier →
      tools.ownSource file = tools.ownSource other

/-! ### The loop -/

variable {tools}

theorem Dir.readToString_write {dir : Dir} {name : Str} {text found : Str}
    (h : (dir.write name (encodeUtf8 text)).readToString name = some found) : found = text := by
  rw [Dir.readToString] at h
  cases hread : (dir.write name (encodeUtf8 text)).read name with
  | error e =>
      rw [hread] at h
      cases h
  | ok bytes =>
      have hbytes := (Dir.read_inv hread).1
      rw [Dir.write_same] at hbytes
      obtain rfl := Except.ok.inj hbytes
      simp only [hread, decodeUtf8_encodeUtf8, Option.some.injEq] at h
      exact h.symm

/-- What one file does: its own source is under its name, the other names are as they were,
and its entry is the last of its table. -/
theorem generateResidual_inv {generated next : Generated} {file : LazyExtensionFile}
    (h : generateResidual tools generated file = some next) :
    (∃ source, tools.ownSource file = some source ∧
      next.outDir (residualName file.specifier) = .ok (encodeUtf8 source)) ∧
    (∀ name, name ≠ residualName file.specifier → next.outDir name = generated.outDir name) ∧
    ∀ kind, next.entries kind = generated.entries kind ++
      ([file].filter (·.kind = kind)).map fun file =>
        (file.specifier, residualName file.specifier) := by
  rw [generateResidual, transpileResidualSource] at h
  cases htranspiled : tools.transpiled file with
  | none =>
      rw [htranspiled] at h
      cases h
  | some transpiled =>
      rw [htranspiled] at h
      simp only at h
      cases hkind : file.kind with
      | js =>
          rw [hkind] at h
          simp only [wrapResidualJsSource] at h
          split at h
          · cases h
          · rename_i outDir hwrap
            split at hwrap
            · cases hwrap
            · rename_i found hread
              obtain rfl := Dir.readToString_write hread
              obtain rfl := Option.some.inj hwrap
              obtain rfl := Option.some.inj h
              refine ⟨⟨tools.wrapLazyExtScript found,
                by simp [Toolchain.ownSource, hkind, htranspiled], by simp⟩, ?_, ?_⟩
              · intro name hne
                simp [hne]
              · intro kind
                cases kind <;> simp [Generated.entries, hkind]
      | esm =>
          rw [hkind] at h
          simp only [Option.some.injEq] at h
          obtain rfl := h
          refine ⟨⟨transpiled, by simp [Toolchain.ownSource, hkind, htranspiled], by simp⟩,
            ?_, ?_⟩
          · intro name hne
            simp [hne]
          · intro kind
            cases kind <;> simp [Generated.entries, hkind]

/-- The loop after some files: each has its entry, and under its name stands the own source of
one of them, the last of that name. -/
structure Filled (tools : Toolchain) (generated : Generated) (done : List LazyExtensionFile) :
    Prop where
  entries : ∀ kind, generated.entries kind =
    (done.filter (·.kind = kind)).map fun file => (file.specifier, residualName file.specifier)
  held : ∀ file ∈ done, ∃ last ∈ done,
    residualName last.specifier = residualName file.specifier ∧
      ∃ source, tools.ownSource last = some source ∧
        generated.outDir (residualName file.specifier) = .ok (encodeUtf8 source)

/-- One file more. -/
theorem Filled.step {generated next : Generated} {done : List LazyExtensionFile}
    {file : LazyExtensionFile} (filled : Filled tools generated done)
    (h : generateResidual tools generated file = some next) :
    Filled tools next (done ++ [file]) := by
  obtain ⟨⟨source, hown, hwritten⟩, hothers, hentries⟩ := generateResidual_inv h
  constructor
  · intro kind
    rw [hentries, filled.entries, List.filter_append, List.map_append]
  · intro other mem
    by_cases hname : residualName other.specifier = residualName file.specifier
    · -- The file overwrites what was there under this name.
      refine ⟨file, by simp, hname.symm, source, hown, ?_⟩
      rw [hname]
      exact hwritten
    · rcases List.mem_append.mp mem with mem | mem
      · obtain ⟨last, hlast, hsame, source, hown, hheld⟩ := filled.held other mem
        refine ⟨last, List.mem_append_left _ hlast, hsame, source, hown, ?_⟩
        rw [hothers _ hname]
        exact hheld
      · obtain rfl := List.mem_singleton.mp mem
        exact absurd rfl hname

/-- The loop over all files. -/
theorem generateResiduals_filled {consumed : List Str} {files done : List LazyExtensionFile}
    {generated result : Generated} (filled : Filled tools generated done)
    (h : generateResiduals tools consumed files generated = some result) :
    Filled tools result (done ++ files.filter fun file => file.specifier ∉ consumed) := by
  induction files generalizing done generated with
  | nil =>
      rw [generateResiduals, Option.some.injEq] at h
      simpa [h] using filled
  | cons file files ih =>
      rw [generateResiduals] at h
      split_ifs at h with hconsumed
      · simpa [hconsumed] using ih filled h
      · cases hnext : generateResidual tools generated file with
        | none =>
            rw [hnext] at h
            cases h
        | some next =>
            rw [hnext] at h
            simpa [hconsumed] using ih (filled.step hnext) h

/-- The table is in no residual's file. -/
theorem residualName_ne_tableFile (specifier : Str) : residualName specifier ≠ tableFile := by
  intro h
  have hslash : '/' ∈ residualName specifier := by simp [residualName]
  rw [h] at hslash
  exact absurd hslash (by decide)

theorem included_residualName (specifier : Str) :
    included (specifier, residualName specifier) = residualName specifier := by
  refine normalize_eq_self fun h => ?_
  exact (residualName_char h).2.2.1 rfl

/-- What the build leaves of the residual files. -/
theorem createCliSnapshot_filled {shown : Char → Bool} {output : SnapshotOutput} {outDir : Dir}
    {generated : Generated}
    (h : createCliSnapshot tools shown output outDir = some generated) :
    Filled tools generated output.residuals := by
  rw [createCliSnapshot] at h
  split at h
  · cases h
  · rename_i looped hloop
    obtain rfl := Option.some.inj h
    have hstart : Filled tools { outDir, residualJs := [], residualEsm := [] } [] := by
      constructor
      · intro kind
        cases kind <;> rfl
      · simp
    have hfilled := generateResiduals_filled hstart hloop
    rw [List.nil_append] at hfilled
    constructor
    · intro kind
      rw [SnapshotOutput.residuals, ← hfilled.entries kind]
      cases kind <;> rfl
    · intro file mem
      simp only [Dir.write_other (residualName_ne_tableFile file.specifier)]
      exact hfilled.held file mem

/-- **Residual files keep their own source exactly where flattening merges no two sources.** -/
theorem keepOwnSource_iff (tools : Toolchain) (shown : Char → Bool) (output : SnapshotOutput)
    (outDir : Dir) :
    ∀ generated, createCliSnapshot tools shown output outDir = some generated →
      (KeepOwnSource tools output generated ↔ AgreeWhereFlattened tools output) := by
  intro generated h
  have filled := createCliSnapshot_filled h
  have hentry : ∀ file ∈ output.residuals, (file.specifier, residualName file.specifier) ∈
      sortEntries (generated.entries file.kind) := by
    intro file mem
    rw [mem_sortEntries, filled.entries]
    exact List.mem_map.mpr ⟨file, by simp [mem], rfl⟩
  constructor
  · intro keep file mem other mem' hname
    have hown : ∀ file ∈ output.residuals, ∃ source, tools.ownSource file = some source ∧
        generated.outDir (residualName file.specifier) = .ok (encodeUtf8 source) := by
      intro file mem
      obtain ⟨same, hin, hspecifier, -, source, hsource, hheld⟩ :=
        keep file.kind _ (hentry file mem)
      obtain rfl : same = file :=
        List.inj_on_of_nodup_map output.distinct hin (List.mem_of_mem_filter mem) hspecifier
      rw [included_residualName] at hheld
      exact ⟨source, hsource, hheld⟩
    -- Both files have the bytes under their one name for their own source.
    obtain ⟨source, hsource, hheld⟩ := hown file mem
    obtain ⟨source', hsource', hheld'⟩ := hown other mem'
    rw [hname, hheld'] at hheld
    have htexts := congrArg decodeUtf8 (Except.ok.inj hheld)
    rw [decodeUtf8_encodeUtf8, decodeUtf8_encodeUtf8] at htexts
    rw [hsource, hsource', htexts]
  · intro agree kind entry mem
    rw [mem_sortEntries, filled.entries, List.mem_map] at mem
    obtain ⟨file, hfile, rfl⟩ := mem
    obtain ⟨hfile, hkind⟩ := List.mem_filter.mp hfile
    obtain ⟨last, hlast, hname, source, hsource, hheld⟩ := filled.held file hfile
    refine ⟨file, List.mem_of_mem_filter hfile, rfl, by simpa using hkind, source, ?_, ?_⟩
    · rw [← agree last hlast file hfile hname]
      exact hsource
    · rw [included_residualName]
      exact hheld

end Generation

/-- Scripts that need no transpiling, in two files. -/
def sampleTools : Toolchain where
  readSource path := if path = lit "a/b.js" then some (lit "1") else some (lit "2")
  maybeTranspileSource _ source := some source
  wrapLazyExtScript source := '(' :: source ++ lit ")"

/-- Two modules whose specifiers differ in a character that is flattened. -/
def flattenedOutput : SnapshotOutput where
  lazyExtensionFiles := [⟨lit "ext:a/b.js", lit "a/b.js", .esm⟩,
    ⟨lit "ext:a_b.js", lit "a_b.js", .esm⟩]
  consumedLazySpecifiers := []
  distinct := by decide

/-- The second module is included for both. -/
theorem flattened_overwritten : ¬ ∀ generated,
    createCliSnapshot sampleTools (fun _ => false) flattenedOutput (fun _ => .error "absent") =
      some generated → KeepOwnSource sampleTools flattenedOutput generated := by
  intro keep
  have hname : residualName (lit "ext:a/b.js") = residualName (lit "ext:a_b.js") := by decide
  have hentry : (lit "ext:a/b.js", residualName (lit "ext:a/b.js")) ∈
      sortEntries [(lit "ext:a/b.js", residualName (lit "ext:a/b.js")),
        (lit "ext:a_b.js", residualName (lit "ext:a_b.js"))] := by
    simp [mem_sortEntries]
  obtain ⟨file, hfile, hspecifier, -, source, hsource, hheld⟩ := keep _ rfl .esm _ hentry
  rw [included_residualName, hname] at hheld
  simp only [Dir.write_other (residualName_ne_tableFile _), Dir.write_same] at hheld
  have htext := congrArg decodeUtf8 (Except.ok.inj hheld)
  rw [decodeUtf8_encodeUtf8, decodeUtf8_encodeUtf8, ← hsource] at htext
  rcases List.mem_pair.mp hfile with rfl | rfl
  · exact absurd htext (by decide)
  · exact absurd hspecifier (by decide)

/-- Where nothing is merged, both modules are included. -/
def distinctOutput : SnapshotOutput where
  lazyExtensionFiles := [⟨lit "ext:a.js", lit "a/b.js", .js⟩, ⟨lit "ext:b.js", lit "b.js", .esm⟩]
  consumedLazySpecifiers := []
  distinct := by decide

theorem keepOwnSource_distinct : ∃ generated,
    createCliSnapshot sampleTools (fun _ => false) distinctOutput (fun _ => .error "absent") =
      some generated ∧ KeepOwnSource sampleTools distinctOutput generated := by
  have hagree : AgreeWhereFlattened sampleTools distinctOutput := by
    rw [AgreeWhereFlattened]
    decide
  exact ⟨_, rfl, (keepOwnSource_iff sampleTools _ distinctOutput _ _ rfl).mpr hagree⟩

end Libdeno.Snapshot
