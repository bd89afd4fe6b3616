import Libdeno.Library.Framing
import Libdeno.Snapshot.Compat

/-!
# Libdeno.Snapshot.PackageHash

`package_hash` of `snapshot_compat.py`: the name, the version, the kind of the source, the
features and the files of a package, written into one digest as length-prefixed strings. The
strings can be read back from the stream, but nothing says where the features end and the files
begin: files of one package can pass for features of another.
-/

namespace Libdeno.Snapshot

open Lines Framing

/-! ### The file tree -/

/-- The name of a directory entry. -/
def FileName := { name : Str // name ≠ [] ∧ '/' ∉ name }

mutual

/-- What `os.scandir` says of an entry. -/
inductive DirEntry where
  | file (bytes : List UInt8)
  | directory (listing : Listing)
  | symlink
  | special

/-- A directory, as `sorted(os.scandir(directory))` lists it. -/
inductive Listing where
  | nil
  | cons (name : FileName) (entry : DirEntry) (rest : Listing)

end

/-- A file that is hashed, by its path from the root. -/
structure SourceFile where
  directory : List FileName
  name : FileName
  bytes : List UInt8

/-- `path.relative_to(root).parts`. -/
def SourceFile.parts (file : SourceFile) : List Str :=
  file.directory.map Subtype.val ++ [file.name.val]

/-- `as_posix`. -/
def asPosix (parts : List Str) : Str := ['/'].intercalate parts

/-- `VCS_DIRS`. -/
def vcsDirs : List Str := [lit ".git", lit ".hg", lit ".svn"]

/-- `CARGO_METADATA`. -/
def cargoMetadata : List Str :=
  [lit ".cargo-ok", lit ".cargo-checksum.json", lit ".cargo_vcs_info.json"]

/-- The entries that are left out. -/
def skipped (isRoot : Bool) (name : Str) : Bool :=
  name ∈ vcsDirs || (isRoot && name ∈ cargoMetadata) || (isRoot && name = lit "target")

mutual

/-- The loop of `visit`. -/
def visit (root : Str) (directory : List FileName) (isRoot : Bool) :
    Listing → Except String (List SourceFile)
  | .nil => .ok []
  | .cons name entry rest =>
      if skipped isRoot name.val then visit root directory isRoot rest
      else
        match visitEntry root directory name entry with
        | .error e => .error e
        | .ok files =>
            match visit root directory isRoot rest with
            | .error e => .error e
            | .ok more => .ok (files ++ more)

/-- The body of the loop of `visit`, for an entry that is not left out. -/
def visitEntry (root : Str) (directory : List FileName) (name : FileName) :
    DirEntry → Except String (List SourceFile)
  | .symlink =>
      let path := root :: (directory ++ [name]).map Subtype.val
      .error s!"symlink in dependency source tree: {String.ofList (asPosix path)}"
  | .directory listing => visit root (directory ++ [name]) false listing
  | .file bytes => .ok [⟨directory, name, bytes⟩]
  | .special => .ok []

end

/-! ### The hash -/

/-- What the script uses of a package: its metadata, and the directory of its manifest. -/
structure Package where
  name : Str
  version : Str
  source : Option Str
  root : Str
  listing : Listing

/-- `source_kind`. -/
def sourceKind (package : Package) : Str :=
  let source := match package.source with
    | none | some [] => lit "path"
    | some source => source
  source.takeWhile (· ≠ '+')

/-- The files of a package, sorted by their parts. -/
def hashedFiles (package : Package) : Except String (List SourceFile) :=
  match visit package.root [] true package.listing with
  | .error e => .error e
  | .ok files => .ok (files.insertionSort fun a b => a.parts ≤ b.parts)

/-- `put`, on what the digest was given so far. -/
def put (stream data : List UInt8) : Except String (List UInt8) :=
  if 256 ^ 8 ≤ data.length then .error "int too big to convert"
  else .ok (stream ++ frame 8 data)

/-- `put` for each string. -/
def putAll : List UInt8 → List (List UInt8) → Except String (List UInt8)
  | stream, [] => .ok stream
  | stream, data :: strings =>
      match put stream data with
      | .error e => .error e
      | .ok stream => putAll stream strings

/-- The strings before the files. -/
def headStrings (package : Package) (features : Finset Str) : List (List UInt8) :=
  ([package.name, package.version, sourceKind package] ++ features.sort (· ≤ ·)).map encodeUtf8

/-- The two strings of a file. -/
def SourceFile.strings (file : SourceFile) : List UInt8 × List UInt8 :=
  (encodeUtf8 (asPosix file.parts), file.bytes)

/-- What `package_hash` gives the digest. -/
def packageStream (package : Package) (features : Finset Str) : Except String (List UInt8) :=
  match putAll [] (headStrings package features) with
  | .error e => .error e
  | .ok stream =>
      match hashedFiles package with
      | .error e => .error e
      | .ok files => putAll stream (flat (files.map SourceFile.strings))

/-- `package_hash`. -/
def packageHash (sha256 : List UInt8 → Digest) (package : Package) (features : Finset Str) :
    Except String Digest :=
  match packageStream package features with
  | .error e => .error e
  | .ok stream => .ok (sha256 stream)

/-! ### Reading the stream back -/

/-- What was written are the frames of the strings. -/
theorem putAll_inv {strings : List (List UInt8)} {stream result : List UInt8}
    (h : putAll stream strings = .ok result) :
    Fits 8 strings ∧ result = stream ++ frames 8 strings := by
  induction strings generalizing stream with
  | nil =>
      rw [putAll, Except.ok.injEq] at h
      exact ⟨by simp [Fits], by simp [h]⟩
  | cons data strings ih =>
      rw [putAll, put] at h
      split_ifs at h with hlong
      obtain ⟨hfits, hresult⟩ := ih h
      refine ⟨List.forall_mem_cons.mpr ⟨not_le.mp hlong, hfits⟩, ?_⟩
      rw [hresult, frames_cons, List.append_assoc]

theorem putAll_total {strings : List (List UInt8)} (fits : Fits 8 strings)
    (stream : List UInt8) : putAll stream strings = .ok (stream ++ frames 8 strings) := by
  induction strings generalizing stream with
  | nil => simp [putAll]
  | cons data strings ih =>
      obtain ⟨hdata, hstrings⟩ := List.forall_mem_cons.mp fits
      rw [putAll, put, if_neg (not_le.mpr hdata)]
      simp [ih hstrings]

/-- The strings of a package whose hash is computed. -/
theorem packageStream_inv {package : Package} {features : Finset Str} {stream : List UInt8}
    (h : packageStream package features = .ok stream) :
    ∃ files, hashedFiles package = .ok files ∧
      Fits 8 (headStrings package features ++ flat (files.map SourceFile.strings)) ∧
      stream = frames 8 (headStrings package features ++ flat (files.map SourceFile.strings)) := by
  rw [packageStream] at h
  split at h
  · cases h
  · rename_i head hhead
    split at h
    · cases h
    · rename_i files hfiles
      obtain ⟨hfits, rfl⟩ := putAll_inv hhead
      obtain ⟨hfits', rfl⟩ := putAll_inv h
      refine ⟨files, hfiles, ?_, by simp⟩
      intro data mem
      exact (List.mem_append.mp mem).elim (hfits data) (hfits' data)

/-- Lengths that fit are all it takes. -/
theorem packageStream_total {package : Package} {features : Finset Str}
    {files : List SourceFile} {strings : List (List UInt8)}
    (hfiles : hashedFiles package = .ok files)
    (hstrings : headStrings package features ++ flat (files.map SourceFile.strings) = strings)
    (fits : Fits 8 strings) : packageStream package features = .ok (frames 8 strings) := by
  subst hstrings
  have hhead : Fits 8 (headStrings package features) :=
    fun data mem => fits data (List.mem_append_left _ mem)
  have htail : Fits 8 (flat (files.map SourceFile.strings)) :=
    fun data mem => fits data (List.mem_append_right _ mem)
  simp only [packageStream, putAll_total hhead, hfiles, putAll_total htail, List.nil_append,
    frames_append]

theorem encodeUtf8_injective : Function.Injective encodeUtf8 := by
  intro a b h
  have := congrArg decodeUtf8 h
  simpa using this

theorem asPosix_injective {a b : List Str} (ha : a ≠ []) (hb : b ≠ [])
    (bare : ∀ name ∈ a ++ b, '/' ∉ name) (h : asPosix a = asPosix b) : a = b := by
  have hparts := congrArg (List.splitOn '/') h
  rw [asPosix, asPosix,
    List.splitOn_intercalate '/' (fun name mem => bare name (List.mem_append_left _ mem)) ha,
    List.splitOn_intercalate '/' (fun name mem => bare name (List.mem_append_right _ mem)) hb]
    at hparts
  exact hparts

theorem SourceFile.slash_notMem_parts (file : SourceFile) : ∀ name ∈ file.parts, '/' ∉ name := by
  intro name mem
  rcases List.mem_append.mp mem with mem | mem
  · obtain ⟨part, -, rfl⟩ := List.mem_map.mp mem
    exact part.property.2
  · rw [List.mem_singleton.mp mem]
    exact file.name.property.2

/-- The two strings of a file determine it. -/
theorem SourceFile.strings_injective : Function.Injective SourceFile.strings := by
  intro a b h
  obtain ⟨hpath, hbytes⟩ := Prod.mk.inj h
  have hbare : ∀ name ∈ a.parts ++ b.parts, '/' ∉ name := by
    intro name mem
    exact (List.mem_append.mp mem).elim (a.slash_notMem_parts name) (b.slash_notMem_parts name)
  have hparts : a.parts = b.parts :=
    asPosix_injective (by simp [parts]) (by simp [parts]) hbare (encodeUtf8_injective hpath)
  obtain ⟨hdirectory, hname⟩ := List.append_inj' hparts rfl
  have hval : Function.Injective (Subtype.val : FileName → Str) := Subtype.val_injective
  cases a
  cases b
  rw [SourceFile.mk.injEq]
  exact ⟨List.map_injective_iff.mpr hval hdirectory, hval (List.cons.inj hname).1, hbytes⟩

/-! ### What the hash determines -/

/-- The features, as they are hashed. -/
def featureStrings (features : Finset Str) : List (List UInt8) :=
  (features.sort (· ≤ ·)).map encodeUtf8

theorem featureStrings_injective : Function.Injective featureStrings := by
  intro a b h
  have hsort := List.map_injective_iff.mpr encodeUtf8_injective h
  rw [← Finset.sort_toFinset a (· ≤ ·), hsort, Finset.sort_toFinset]

/-- Two packages agree in all that the hash is meant to cover. -/
structure SamePackage (a b : Package) (featuresA featuresB : Finset Str) : Prop where
  name : a.name = b.name
  version : a.version = b.version
  kind : sourceKind a = sourceKind b
  features : featuresA = featuresB
  files : hashedFiles a = hashedFiles b

/-- Packages of one name, version and source kind, where the sorted features of the second are
those of the first and then, in turn, the paths and the contents of the first's first files; the
second has the other files. -/
structure FilesAsFeatures (a b : Package) (featuresA featuresB : Finset Str) : Prop where
  name : a.name = b.name
  version : a.version = b.version
  kind : sourceKind a = sourceKind b
  shifted : ∃ filesA filesB, hashedFiles a = .ok filesA ∧ hashedFiles b = .ok filesB ∧
    Shifted (featureStrings featuresA) (featureStrings featuresB)
      (filesA.map SourceFile.strings) (filesB.map SourceFile.strings)

/-- When the streams of two packages are equal. -/
theorem packageStream_eq_iff {a b : Package} {featuresA featuresB : Finset Str}
    {streamA streamB : List UInt8} (ha : packageStream a featuresA = .ok streamA)
    (hb : packageStream b featuresB = .ok streamB) :
    streamA = streamB ↔ SamePackage a b featuresA featuresB ∨
      FilesAsFeatures a b featuresA featuresB ∨ FilesAsFeatures b a featuresB featuresA := by
  obtain ⟨filesA, hfilesA, fitsA, rfl⟩ := packageStream_inv ha
  obtain ⟨filesB, hfilesB, fitsB, rfl⟩ := packageStream_inv hb
  have hstrings : headStrings a featuresA ++ flat (filesA.map SourceFile.strings) =
      headStrings b featuresB ++ flat (filesB.map SourceFile.strings) ↔
      (a.name = b.name ∧ a.version = b.version ∧ sourceKind a = sourceKind b) ∧
        featureStrings featuresA ++ flat (filesA.map SourceFile.strings) =
          featureStrings featuresB ++ flat (filesB.map SourceFile.strings) := by
    simp only [headStrings, featureStrings, List.map_cons, List.cons_append, List.nil_append,
      List.cons.injEq, encodeUtf8_injective.eq_iff, and_assoc]
  have hframes : frames 8 (headStrings a featuresA ++ flat (filesA.map SourceFile.strings)) =
      frames 8 (headStrings b featuresB ++ flat (filesB.map SourceFile.strings)) ↔
      headStrings a featuresA ++ flat (filesA.map SourceFile.strings) =
        headStrings b featuresB ++ flat (filesB.map SourceFile.strings) :=
    ⟨frames_injective (by decide) fitsA fitsB, fun h => by rw [h]⟩
  -- What is left is the boundary between the features and the files.
  rw [hframes, hstrings, append_flat_eq_iff]
  constructor
  · rintro ⟨⟨hname, hversion, hkind⟩, ⟨hfeatures, hfiles⟩ | hshifted | hshifted⟩
    · refine .inl ⟨hname, hversion, hkind, featureStrings_injective hfeatures, ?_⟩
      rw [hfilesA, hfilesB, List.map_injective_iff.mpr SourceFile.strings_injective hfiles]
    · exact .inr (.inl ⟨hname, hversion, hkind, filesA, filesB, hfilesA, hfilesB, hshifted⟩)
    · exact .inr (.inr ⟨hname.symm, hversion.symm, hkind.symm, filesB, filesA, hfilesB, hfilesA,
        hshifted⟩)
  · rintro (⟨hname, hversion, hkind, rfl, hfiles⟩ |
      ⟨hname, hversion, hkind, filesA', filesB', hA, hB, hshifted⟩ |
      ⟨hname, hversion, hkind, filesB', filesA', hB, hA, hshifted⟩)
    · rw [hfilesA, hfilesB, Except.ok.injEq] at hfiles
      exact ⟨⟨hname, hversion, hkind⟩, .inl ⟨rfl, by rw [hfiles]⟩⟩
    · obtain rfl := Except.ok.inj (hfilesA.symm.trans hA)
      obtain rfl := Except.ok.inj (hfilesB.symm.trans hB)
      exact ⟨⟨hname, hversion, hkind⟩, .inr (.inl hshifted)⟩
    · obtain rfl := Except.ok.inj (hfilesA.symm.trans hA)
      obtain rfl := Except.ok.inj (hfilesB.symm.trans hB)
      exact ⟨⟨hname.symm, hversion.symm, hkind.symm⟩, .inr (.inr hshifted)⟩

/-- Files that pass for features make the features differ. -/
theorem FilesAsFeatures.ne {a b : Package} {featuresA featuresB : Finset Str}
    (h : FilesAsFeatures a b featuresA featuresB) : featuresA ≠ featuresB := by
  rintro rfl
  obtain ⟨filesA, filesB, -, -, hshifted⟩ := h.shifted
  exact hshifted.ne rfl

/-- **`package_hash` determines what it covers exactly where no files pass for features.** The
digest is asked not to confuse the two streams. -/
theorem packageHash_determines_iff (sha256 : List UInt8 → Digest) {a b : Package}
    {featuresA featuresB : Finset Str} {streamA streamB : List UInt8}
    (ha : packageStream a featuresA = .ok streamA)
    (hb : packageStream b featuresB = .ok streamB)
    (collisionFree : sha256 streamA = sha256 streamB → streamA = streamB) :
    (packageHash sha256 a featuresA = packageHash sha256 b featuresB →
      SamePackage a b featuresA featuresB) ↔
    ¬ FilesAsFeatures a b featuresA featuresB ∧ ¬ FilesAsFeatures b a featuresB featuresA := by
  have hhash : packageHash sha256 a featuresA = packageHash sha256 b featuresB ↔
      streamA = streamB := by
    rw [packageHash, packageHash, ha, hb, Except.ok.injEq]
    exact ⟨collisionFree, fun h => by rw [h]⟩
  rw [hhash, packageStream_eq_iff ha hb]
  constructor
  · intro determines
    constructor
    · intro h
      exact h.ne (determines (.inr (.inl h))).features
    · intro h
      exact h.ne (determines (.inr (.inr h))).features.symm
  · rintro ⟨hnot, hnot'⟩ (same | h | h)
    · exact same
    · exact absurd h hnot
    · exact absurd h hnot'

/-! ### Files that pass for features -/

/-- `Cargo.toml`, with nothing in it. -/
def sampleManifestName : FileName := ⟨lit "Cargo.toml", by decide⟩

/-- A package with a file `A` in which there is a `B`. -/
def filePackage : Package where
  name := lit "p"
  version := lit "1"
  source := none
  root := lit "/p"
  listing := .cons ⟨lit "A", by decide⟩ (.file (encodeUtf8 (lit "B")))
    (.cons sampleManifestName (.file []) .nil)

/-- The package without it. -/
def featurePackage : Package := { filePackage with
  listing := .cons sampleManifestName (.file []) .nil }

def sampleFeatures : Finset Str := [lit "A", lit "B"].toFinset

theorem sort_sampleFeatures : sampleFeatures.sort (· ≤ ·) = [lit "A", lit "B"] :=
  (List.toFinset_sort (· ≤ ·) (by decide)).mpr (by decide)

/-- What both packages give the digest. -/
def sampleStrings : List (List UInt8) :=
  [lit "p", lit "1", lit "path", lit "A", lit "B", lit "Cargo.toml", []].map encodeUtf8

theorem sampleStrings_fit : Fits 8 sampleStrings := by
  intro data mem
  have hshort : data.length ≤ 10 := by
    revert data
    decide
  exact lt_of_le_of_lt hshort (by decide)

theorem filePackage_stream : packageStream filePackage ∅ = .ok (frames 8 sampleStrings) :=
  packageStream_total rfl (by rw [headStrings, Finset.sort_empty]; rfl) sampleStrings_fit

theorem featurePackage_stream :
    packageStream featurePackage sampleFeatures = .ok (frames 8 sampleStrings) :=
  packageStream_total rfl (by rw [headStrings, sort_sampleFeatures]; rfl) sampleStrings_fit

/-- The package without features that has the file `A`, and the one without the file that has
the features `A` and `B`, have one hash. -/
theorem filePackage_hash : (∀ sha256, ∃ digest,
    packageHash sha256 filePackage ∅ = .ok digest ∧
      packageHash sha256 featurePackage sampleFeatures = .ok digest) ∧
    ¬ SamePackage filePackage featurePackage ∅ sampleFeatures := by
  constructor
  · intro sha256
    refine ⟨sha256 (frames 8 sampleStrings), ?_, ?_⟩
    · rw [packageHash, filePackage_stream]
    · rw [packageHash, featurePackage_stream]
  · intro same
    have hsort := sort_sampleFeatures
    rw [← same.features, Finset.sort_empty] at hsort
    cases hsort

/-- A digest that tells the stream of the two packages from every other. -/
def sampleSha256 (stream : List UInt8) : Digest :=
  if stream = frames 8 sampleStrings then
    ⟨List.replicate 64 '0', by decide, forall_mem_of_all (by decide)⟩
  else ⟨List.replicate 64 '1', by decide, forall_mem_of_all (by decide)⟩

theorem packageHash_determines_sample :
    (packageHash sampleSha256 filePackage ∅ = packageHash sampleSha256 featurePackage ∅ →
      SamePackage filePackage featurePackage ∅ ∅) ↔
    ¬ FilesAsFeatures filePackage featurePackage ∅ ∅ ∧
      ¬ FilesAsFeatures featurePackage filePackage ∅ ∅ := by
  have hfit : Fits 8 ([lit "p", lit "1", lit "path", lit "Cargo.toml", []].map encodeUtf8) :=
    fun data mem => sampleStrings_fit data (by revert data; decide)
  refine packageHash_determines_iff sampleSha256 filePackage_stream
    (packageStream_total rfl (by rw [headStrings, Finset.sort_empty]; rfl) hfit) ?_
  intro h
  by_contra hne
  rw [sampleSha256, if_pos rfl, sampleSha256, if_neg (Ne.symm hne)] at h
  exact absurd (congrArg Digest.text h) (by decide)

end Libdeno.Snapshot
