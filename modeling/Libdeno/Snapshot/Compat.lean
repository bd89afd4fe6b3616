import Mathlib
import Libdeno.Snapshot.Bundle

/-!
# Libdeno.Snapshot.Compat

The provenance of a bundle: the sidecar that `snapshot_compat.py` writes beside a manifest,
its check by the wrapper, the declaration the wrapper hands to the build script, and
`snapshot_compat::verify`, which reads both again. Two implementations of the fingerprint
and two of the record format meet here.
-/

namespace Libdeno.Snapshot

open Lines

/-! ### The script -/

/-- `fnv`: the loop on unbounded integers, masked to 64 bits. -/
def fnvMasked (data : List UInt8) : Nat :=
  data.foldl (fun value byte => (value ^^^ byte.toNat) * 0x100000001b3 % 2 ^ 64)
    0xcbf29ce484222325

/-- `fnv`, as it is printed. -/
def fnv (data : List UInt8) : Str :=
  let digits := Nat.toDigits 16 (fnvMasked data)
  List.replicate (16 - digits.length) '0' ++ digits

/-- The script and the build script compute one fingerprint. -/
theorem fnv_eq_fingerprint (data : List UInt8) : fnv data = fingerprint data := by
  have hloop : ∀ (data : List UInt8) (hash : UInt64),
      (data.foldl (fun hash byte => (hash ^^^ byte.toUInt64) * 0x100000001b3) hash).toNat =
        data.foldl (fun value byte => (value ^^^ byte.toNat) * 0x100000001b3 % 2 ^ 64)
          hash.toNat := by
    intro data
    induction data with
    | nil =>
        intro hash
        rfl
    | cons byte data ih =>
        intro hash
        rw [List.foldl_cons, List.foldl_cons, ih]
        simp
  have hsame : (fnv1a data).toNat = fnvMasked data := hloop data _
  rw [fnv, fingerprint, hsame]

/-- The digest of a dependency graph: `hexdigest` of SHA-256. -/
structure Digest where
  text : Str
  length : text.length = 64
  hex : ∀ c ∈ text, c ∈ lit "0123456789abcdef"

/-- `SIDECAR`. -/
def sidecarFile : Str := lit "libdeno-snapshot.sources"

/-- The line a manifest of this format has. -/
def formatLine : Str := lit "format=libdeno-snapshot-2" ++ ['\n']

/-- `b"format=libdeno-snapshot-2\n" in manifest`. -/
def HasFormat (manifest : List UInt8) : Prop := encodeUtf8 formatLine <:+: manifest

instance (manifest : List UInt8) : Decidable (HasFormat manifest) :=
  inferInstanceAs (Decidable (_ <:+: _))

/-- What `write_sidecar` writes. -/
def sidecarText (target : Str) (identity : Digest) (manifest : List UInt8) : Str :=
  writeln (fieldLine (lit "format", lit "libdeno-snapshot-sources-1")) ++
    (writeln (fieldLine (lit "target", target)) ++
      (writeln (fieldLine (lit "manifest-hash", fnv manifest)) ++
        (writeln (fieldLine (lit "source-hash", identity.text)) ++ [])))

/-- The declaration `main` writes for an import, of a mode. -/
def declarationText (mode target bundle manifestHash : Str) (identity : Digest) : Str :=
  writeln (fieldLine (lit "format", lit "libdeno-snapshot-compat-1")) ++
    (writeln (fieldLine (lit "mode", mode)) ++
      (writeln (fieldLine (lit "target", target)) ++
        (writeln (fieldLine (lit "bundle", bundle)) ++
          (writeln (fieldLine (lit "manifest-hash", manifestHash)) ++
            (writeln (fieldLine (lit "source-hash", identity.text)) ++ [])))))

/-- Universal newlines: what `read_text` makes of line ends. -/
def universalNewlines : Str → Str
  | [] => []
  | '\r' :: '\n' :: rest => '\n' :: universalNewlines rest
  | '\r' :: rest => '\n' :: universalNewlines rest
  | c :: rest => c :: universalNewlines rest

/-- The characters `str.splitlines` cuts at. -/
def isLineBreak (c : Char) : Bool :=
  c.toNat ∈ [0x0a, 0x0b, 0x0c, 0x0d, 0x1c, 0x1d, 0x1e, 0x85, 0x2028, 0x2029]

/-- `str.splitlines`, of a text with universal newlines. -/
def splitlines : Str → List Str
  | [] => []
  | c :: rest =>
      if isLineBreak c then [] :: splitlines rest
      else
        match splitlines rest with
        | [] => [[c]]
        | line :: lines => (c :: line) :: lines

/-- The lines of `read_record`. -/
def recordFields : List Str → List (Str × Str) → Option (List (Str × Str))
  | [], record => some record
  | line :: lines, record =>
      match splitOnce '=' line with
      | none => none
      | some (key, value) =>
          if key = [] ∨ (record.lookup key).isSome then none
          else recordFields lines (record ++ [(key, value)])

/-- The fields of a sidecar. -/
def sidecarKeys : List Str :=
  [lit "format", lit "target", lit "manifest-hash", lit "source-hash"]

/-- `read_record`. -/
def readRecord (bytes : List UInt8) : Option (List (Str × Str)) :=
  match decodeUtf8 bytes with
  | none => none
  | some text =>
      match recordFields (splitlines (universalNewlines text)) [] with
      | none => none
      | some record =>
          if (∀ field ∈ record, field.1 ∈ sidecarKeys) ∧
              ∀ key ∈ sidecarKeys, (record.lookup key).isSome then some record
          else none

/-- The comparisons of `check_bundle`, of the sidecar's bytes. -/
def checkSidecar (target : Str) (identity : Digest) (manifest sidecar : List UInt8) : Bool :=
  match readRecord sidecar with
  | none => false
  | some record =>
      record.lookup (lit "format") = some (lit "libdeno-snapshot-sources-1") &&
      record.lookup (lit "target") = some target &&
      record.lookup (lit "manifest-hash") = some (fnv manifest) &&
      record.lookup (lit "source-hash") = some identity.text

/-! ### The build script -/

/-- `fields`: the fields of a record, each key once. -/
def fields : List Str → List (Str × Str) → Except String (List (Str × Str))
  | [], record => .ok record
  | line :: lines, record =>
      match splitOnce '=' line with
      | none => .error "invalid compatibility record"
      | some (key, value) =>
          if (record.lookup key).isSome then
            .error s!"duplicate compatibility field {String.ofList key}"
          else fields lines (record ++ [(key, value)])

/-- The fields of a declaration. -/
def declarationKeys : List Str :=
  [lit "format", lit "mode", lit "target", lit "bundle", lit "source-hash",
    lit "manifest-hash"]

/-- `source_hash.bytes().all(|b| b.is_ascii_hexdigit())`, and 64 of them. -/
def isSourceHash (hash : Str) : Bool :=
  hash.length = 64 && hash.all fun c =>
    c.isDigit || ('a' ≤ c && c ≤ 'f') || ('A' ≤ c && c ≤ 'F')

/-- The declaration's checks in `verify`; the result is its mode and its source hash. -/
def verifyDeclaration (canonical : Str → Option Str) (bundle target : Str)
    (manifest : List UInt8) (declaration : Str) : Except String (Str × Str) :=
  match fields (lines declaration) [] with
  | .error e => .error e
  | .ok declaration =>
      if declaration.any fun field => field.1 ∉ declarationKeys then
        .error "unknown field in compatibility declaration"
      else if declaration.lookup (lit "format") ≠ some (lit "libdeno-snapshot-compat-1") then
        .error "unsupported snapshot compatibility declaration"
      else if declaration.lookup (lit "target") ≠ some target then
        .error "compatibility declaration target does not match this build"
      else
        match declaration.lookup (lit "mode") with
        | none => .error "compatibility declaration has an invalid mode"
        | some mode =>
            if ¬ (mode = lit "verified" ∨ mode = lit "assumed") then
              .error "compatibility declaration has an invalid mode"
            else
              match declaration.lookup (lit "bundle") with
              | none => .error "declaration is missing bundle"
              | some declared =>
                  if (canonical declared).isNone ∨ canonical declared ≠ canonical bundle then
                    .error "compatibility declaration refers to a different bundle"
                  else
                    match declaration.lookup (lit "source-hash") with
                    | none => .error "declaration is missing source-hash"
                    | some sourceHash =>
                        if !isSourceHash sourceHash then
                          .error "invalid source identity in compatibility declaration"
                        else if declaration.lookup (lit "manifest-hash") ≠
                            some (fingerprint manifest) then
                          .error "compatibility declaration is bound to a different bundle manifest"
                        else .ok (mode, sourceHash)

/-- The sidecar's checks in `verify`. -/
def verifySidecar (target sourceHash : Str) (manifest : List UInt8) (sidecar : Str) :
    Except String Unit :=
  match fields (lines sidecar) [] with
  | .error e => .error e
  | .ok record =>
      if record.any fun field => field.1 ∉ sidecarKeys then
        .error "unknown field in source provenance sidecar"
      else if record.lookup (lit "format") ≠ some (lit "libdeno-snapshot-sources-1") ∨
          record.lookup (lit "target") ≠ some target ∨
          record.lookup (lit "source-hash") ≠ some sourceHash ∨
          record.lookup (lit "manifest-hash") ≠ some (fingerprint manifest) then
        .error "bundle source provenance does not match this source tree, target, or manifest"
      else .ok ()

/-- `verify`, of the declaration's text and of the sidecar's bytes, if it is there. -/
def verifyCompat (canonical : Str → Option Str) (bundle target : Str) (manifest : List UInt8)
    (declaration : Str) (sidecar : Option (List UInt8)) : Except String Unit :=
  match verifyDeclaration canonical bundle target manifest declaration with
  | .error e => .error e
  | .ok (mode, sourceHash) =>
      match sidecar with
      | none =>
          if mode = lit "assumed" then .ok ()
          else .error "bundle has no source provenance; rerun with --assume-compatible only if its dependencies are known to match"
      | some bytes =>
          match decodeUtf8 bytes with
          | none =>
              .error "cannot read source provenance sidecar: stream did not contain valid UTF-8"
          | some text => verifySidecar target sourceHash manifest text

/-! ### What an accepted sidecar says -/

/-- Every line of a record is one of its fields. -/
theorem fields_inv {ls : List Str} {record found : List (Str × Str)}
    (h : fields ls record = .ok found) :
    (∀ key value, record.lookup key = some value → found.lookup key = some value) ∧
      ∀ line ∈ ls, ∀ key value, splitOnce '=' line = some (key, value) →
        found.lookup key = some value := by
  induction ls generalizing record with
  | nil =>
      cases h
      exact ⟨fun _ _ h => h, by simp⟩
  | cons line ls ih =>
      rw [fields] at h
      split at h
      · cases h
      · rename_i key value hline
        split at h
        · cases h
        · rename_i hnew
          obtain ⟨hkept, hlines⟩ := ih h
          have hnone : record.lookup key = none := by
            cases hlookup : record.lookup key with
            | none => rfl
            | some _ =>
                rw [hlookup] at hnew
                exact absurd rfl hnew
          refine ⟨?_, ?_⟩
          · intro key' value' hlookup
            refine hkept _ _ ?_
            rw [List.lookup_append, hlookup]
            rfl
          · intro line' mem key' value' hsplit
            rcases List.mem_cons.mp mem with rfl | mem
            · rw [hline] at hsplit
              cases hsplit
              refine hkept _ _ ?_
              rw [List.lookup_append, hnone]
              simp
            · exact hlines line' mem key' value' hsplit

/-- Two lines as one text with a line break in it. -/
theorem writeln_writeln (a b rest : Str) :
    writeln a ++ (writeln b ++ rest) = writeln (a ++ '\n' :: b) ++ rest := by
  simp [writeln]

/-- A field's line in the middle of an accepted record. -/
theorem fields_lookup {before after key value : Str} {found : List (Str × Str)}
    (hkey : KeyText key) (hvalue : Clean value)
    (h : fields (lines (writeln before ++ (writeln (fieldLine (key, value)) ++ after))) [] =
      .ok found) : found.lookup key = some value := by
  have hfield : FieldClean (key, value) := ⟨hkey, hvalue⟩
  have htext : writeln before ++ (writeln (fieldLine (key, value)) ++ after) =
      before ++ '\n' :: (fieldLine (key, value) ++ '\n' :: after) := by
    simp [writeln]
  rw [htext] at h
  have hmem := mem_lines hfield.single hfield.last before after
  exact (fields_inv h).2 _ hmem _ _ hfield.splitOnce

theorem verifyDeclaration_inv {canonical : Str → Option Str} {bundle target : Str}
    {manifest : List UInt8} {declaration mode sourceHash : Str}
    (h : verifyDeclaration canonical bundle target manifest declaration =
      .ok (mode, sourceHash)) :
    ∃ found, fields (lines declaration) [] = .ok found ∧
      found.lookup (lit "mode") = some mode ∧
      found.lookup (lit "source-hash") = some sourceHash := by
  rw [verifyDeclaration] at h
  split at h
  · cases h
  · rename_i found hfound
    refine ⟨found, hfound, ?_⟩
    split at h
    · cases h
    · split at h
      · cases h
      · split at h
        · cases h
        · split at h
          · cases h
          · rename_i hmode
            split at h
            · cases h
            · split at h
              · cases h
              · split at h
                · cases h
                · split at h
                  · cases h
                  · rename_i hsource
                    split at h
                    · cases h
                    · split at h
                      · cases h
                      · cases h
                        exact ⟨hmode, hsource⟩

theorem verifySidecar_inv {target sourceHash : Str} {manifest : List UInt8} {sidecar : Str}
    (h : verifySidecar target sourceHash manifest sidecar = .ok ()) :
    ∃ found, fields (lines sidecar) [] = .ok found ∧
      found.lookup (lit "source-hash") = some sourceHash ∧
      found.lookup (lit "manifest-hash") = some (fingerprint manifest) := by
  rw [verifySidecar] at h
  split at h
  · cases h
  · rename_i found hfound
    refine ⟨found, hfound, ?_⟩
    split at h
    · cases h
    · split at h
      · cases h
      · rename_i hsame
        simp only [not_or, not_not] at hsame
        exact ⟨hsame.2.2.1, hsame.2.2.2⟩

theorem Digest.clean (digest : Digest) : Clean digest.text := by
  have hsolid : ∀ c ∈ lit "0123456789abcdef", c ≠ '\n' ∧ isWhitespace c = false :=
    forall_mem_of_all (by decide)
  constructor
  · intro mem
    exact (hsolid _ (digest.hex _ mem)).1 rfl
  · intro c h
    exact (hsolid _ (digest.hex _ (List.mem_of_getLast? h))).2

/-- The last two fields of a sidecar are read back, whatever its target. -/
theorem fields_sidecarText {target : Str} {identity : Digest} {manifest : List UInt8}
    {found : List (Str × Str)}
    (h : fields (lines (sidecarText target identity manifest)) [] = .ok found) :
    found.lookup (lit "manifest-hash") = some (fingerprint manifest) ∧
      found.lookup (lit "source-hash") = some identity.text := by
  rw [sidecarText, writeln_writeln, fnv_eq_fingerprint] at h
  constructor
  · exact fields_lookup (by decide) (.fingerprint manifest) h
  · rw [writeln_writeln] at h
    exact fields_lookup (by decide) identity.clean h

/-- The mode and the source hash of a declaration are read back, whatever its target. -/
theorem fields_declarationText {mode target bundle manifestHash : Str} {identity : Digest}
    {found : List (Str × Str)} (hmode : Clean mode)
    (h : fields (lines (declarationText mode target bundle manifestHash identity)) [] =
      .ok found) :
    found.lookup (lit "mode") = some mode ∧
      found.lookup (lit "source-hash") = some identity.text := by
  rw [declarationText] at h
  constructor
  · exact fields_lookup (by decide) hmode h
  · rw [writeln_writeln, writeln_writeln, writeln_writeln, writeln_writeln] at h
    exact fields_lookup (by decide) identity.clean h

/-- A verified import accepts a published sidecar only for the manifest it was written for
and for the importer's own source hash. -/
theorem verifyCompat_inv {canonical : Str → Option Str} {bundle target declared manifestHash :
    Str} {identity : Digest} {manifest : List UInt8} {sidecar : Option (List UInt8)}
    (h : verifyCompat canonical bundle target manifest
      (declarationText (lit "verified") declared bundle manifestHash identity) sidecar =
        .ok ()) :
    ∃ bytes, sidecar = some bytes ∧
      ∀ (of : Str) (digest : Digest) (published : List UInt8),
        bytes = encodeUtf8 (sidecarText of digest published) →
          fingerprint published = fingerprint manifest ∧ digest.text = identity.text := by
  rw [verifyCompat] at h
  split at h
  · cases h
  · rename_i mode sourceHash hdeclaration
    obtain ⟨found, hfound, hmode, hsource⟩ := verifyDeclaration_inv hdeclaration
    obtain ⟨hmode', hsource'⟩ := fields_declarationText (by decide) hfound
    have hverified : mode = lit "verified" := by
      rw [hmode] at hmode'
      exact Option.some.inj hmode'
    have hown : sourceHash = identity.text := by
      rw [hsource] at hsource'
      exact Option.some.inj hsource'
    split at h
    · rw [hverified, if_neg (by decide)] at h
      cases h
    · rename_i bytes
      refine ⟨bytes, rfl, ?_⟩
      intro of digest published hbytes
      rw [hbytes, decodeUtf8_encodeUtf8] at h
      obtain ⟨record, hrecord, hsidecar, hmanifest⟩ := verifySidecar_inv h
      obtain ⟨hmanifest', hsidecar'⟩ := fields_sidecarText hrecord
      rw [hmanifest] at hmanifest'
      rw [hsidecar, hown] at hsidecar'
      exact ⟨(Option.some.inj hmanifest').symm, (Option.some.inj hsidecar').symm⟩

end Libdeno.Snapshot
