import Libdeno.Snapshot.Table

/-!
# Libdeno.Snapshot.Manifest

The manifest of a snapshot bundle: what it records, how it is rendered as `key=value`
lines, and how the importer reads it back. The reader trims every line and cuts at the
first `=` and at tabs, so the round trip holds for values without line breaks that do not
end in white space, and for residual names without tabs.
-/

namespace Libdeno.Snapshot

open Lines

/-! ### What is recorded -/

/-- `Identity`. -/
structure Identity where
  libdeno : Str
  target : Str
  v8 : Str
  typescript : Str
  denoCore : Str
  denoRuntime : Str
  deriving Repr, DecidableEq

/-- `Residual`. -/
structure Residual where
  name : Str
  bytes : Nat
  hash : Str
  deriving Repr, DecidableEq

/-- `Manifest`. -/
structure Manifest where
  identity : Identity
  snapshotBytes : Nat
  snapshotHash : Str
  tableBytes : Nat
  tableHash : Str
  residuals : List Residual
  deriving Repr, DecidableEq

/-- FNV-1a, over 64 bits. -/
def fnv1a (bytes : List UInt8) : UInt64 :=
  bytes.foldl (fun hash byte => (hash ^^^ byte.toUInt64) * 0x100000001b3) 0xcbf29ce484222325

/-- `fingerprint`: the hash as sixteen hexadecimal digits. -/
def fingerprint (bytes : List UInt8) : Str :=
  let digits := Nat.toDigits 16 (fnv1a bytes).toNat
  List.replicate (16 - digits.length) '0' ++ digits

/-- `FORMAT`. -/
def format : Str := lit "libdeno-snapshot-2"

/-- `describe`. -/
def describe (identity : Identity) (snapshot table : List UInt8) : Manifest where
  identity := identity
  snapshotBytes := snapshot.length
  snapshotHash := fingerprint snapshot
  tableBytes := table.length
  tableHash := fingerprint table
  residuals := []

/-! ### Rendering -/

/-- One `key=value` line. -/
def fieldLine (field : Str × Str) : Str := field.1 ++ '=' :: field.2

/-- The fields before the residuals, in the order they are rendered. -/
def headerFields (manifest : Manifest) : List (Str × Str) :=
  [(lit "format", format),
    (lit "libdeno", manifest.identity.libdeno),
    (lit "target", manifest.identity.target),
    (lit "v8", manifest.identity.v8),
    (lit "typescript", manifest.identity.typescript),
    (lit "deno-core", manifest.identity.denoCore),
    (lit "deno-runtime", manifest.identity.denoRuntime),
    (lit "snapshot-bytes", decimal manifest.snapshotBytes),
    (lit "snapshot-hash", manifest.snapshotHash),
    (lit "table-bytes", decimal manifest.tableBytes),
    (lit "table-hash", manifest.tableHash)]

/-- A residual's field: name, length and hash between tabs. -/
def residualField (residual : Residual) : Str × Str :=
  (lit "residual",
    residual.name ++ '\t' :: (decimal residual.bytes ++ '\t' :: residual.hash))

/-- `render`. -/
def render (manifest : Manifest) : Str :=
  (headerFields manifest ++ manifest.residuals.map residualField).flatMap fun field =>
    writeln (fieldLine field)

/-! ### Parsing -/

/-- `usize::MAX + 1`. -/
def usizeBound : Nat := 2 ^ 64

/-- The keys `parse` knows besides `residual`. -/
def knownKeys : List Str :=
  ["format", "libdeno", "target", "v8", "typescript", "deno-core", "deno-runtime",
    "snapshot-bytes", "snapshot-hash", "table-bytes", "table-hash"].map lit

/-- What has been read of a manifest: the fields, the latest first, and the residuals. -/
structure Parsed where
  fields : List (Str × Str)
  residuals : List Residual
  deriving Repr, DecidableEq

/-- The value of a `residual` line. -/
def parseResidual (value : Str) : Except String Residual :=
  match value.splitOn '\t' with
  | [name, bytes, hash] =>
      match parseNat usizeBound bytes with
      | some bytes =>
          if name = [] then .error "invalid residual manifest entry"
          else .ok { name, bytes, hash }
      | none => .error "invalid residual manifest entry"
  | _ => .error "invalid residual manifest entry"

/-- One line of a manifest. -/
def parseLine (shown : Char → Bool) (number : Nat) (line : Str) (parsed : Parsed) :
    Except String Parsed :=
  let line := trim isWhitespace line
  if line = [] then .ok parsed
  else
    match splitOnce '=' line with
    | none =>
        .error s!"line {number} is not key=value: {String.ofList (debug shown line)}"
    | some (key, value) =>
        if key = lit "residual" then
          match parseResidual value with
          | .error e => .error e
          | .ok residual => .ok { parsed with residuals := parsed.residuals ++ [residual] }
        else if key ∈ knownKeys then
          .ok { parsed with fields := (key, value) :: parsed.fields }
        else .error s!"unknown manifest key {String.ofList (debug shown key)}"

/-- The lines of a manifest, numbered. -/
def parseLines (shown : Char → Bool) : Nat → List Str → Parsed → Except String Parsed
  | _, [], parsed => .ok parsed
  | number, line :: rest, parsed =>
      match parseLine shown number line parsed with
      | .error e => .error e
      | .ok parsed => parseLines shown (number + 1) rest parsed

/-- `get`. -/
def Parsed.get (parsed : Parsed) (key : String) : Except String Str :=
  match parsed.fields.lookup (lit key) with
  | some value => .ok value
  | none => .error s!"manifest is missing {key}"

/-- `number`. -/
def Parsed.number (parsed : Parsed) (key : String) : Except String Nat :=
  match parsed.get key with
  | .error e => .error e
  | .ok value =>
      match parseNat usizeBound value with
      | some n => .ok n
      | none => .error s!"manifest {key} is not a byte count"

/-- The manifest of what was read. -/
def Parsed.manifest (parsed : Parsed) : Except String Manifest := do
  let found ← parsed.get "format"
  if found ≠ format then
    throw s!"manifest format {String.ofList found} is not libdeno-snapshot-2; regenerate the bundle"
  let libdeno ← parsed.get "libdeno"
  let target ← parsed.get "target"
  let v8 ← parsed.get "v8"
  let typescript ← parsed.get "typescript"
  let denoCore ← parsed.get "deno-core"
  let denoRuntime ← parsed.get "deno-runtime"
  let snapshotBytes ← parsed.number "snapshot-bytes"
  let snapshotHash ← parsed.get "snapshot-hash"
  let tableBytes ← parsed.number "table-bytes"
  let tableHash ← parsed.get "table-hash"
  return {
    identity := { libdeno, target, v8, typescript, denoCore, denoRuntime }
    snapshotBytes, snapshotHash, tableBytes, tableHash
    residuals := parsed.residuals }

/-- `parse`. -/
def parse (shown : Char → Bool) (text : Str) : Except String Manifest :=
  match parseLines shown 1 (lines text) ⟨[], []⟩ with
  | .error e => .error e
  | .ok parsed => parsed.manifest

/-! ### What survives the round trip -/

/-- A value without line breaks or trailing white space. -/
structure Clean (value : Str) : Prop where
  single : '\n' ∉ value
  last : ∀ c, value.getLast? = some c → isWhitespace c = false

theorem clean_iff {value : Str} :
    '\n' ∉ value ∧ value.getLast?.all (fun c => !isWhitespace c) = true ↔ Clean value := by
  constructor
  · rintro ⟨hsingle, hlast⟩
    refine ⟨hsingle, ?_⟩
    intro c h
    simpa [h] using hlast
  · intro h
    refine ⟨h.single, ?_⟩
    cases hlast : value.getLast? with
    | none => rfl
    | some c => simp [h.last c hlast]

instance (value : Str) : Decidable (Clean value) := decidable_of_iff _ clean_iff

/-- An identity of clean fields. -/
structure Identity.Clean (identity : Identity) : Prop where
  libdeno : Snapshot.Clean identity.libdeno
  target : Snapshot.Clean identity.target
  v8 : Snapshot.Clean identity.v8
  typescript : Snapshot.Clean identity.typescript
  denoCore : Snapshot.Clean identity.denoCore
  denoRuntime : Snapshot.Clean identity.denoRuntime

/-- A residual whose name and hash a line can carry. -/
structure Residual.Clean (residual : Residual) : Prop where
  name : residual.name ≠ [] ∧ '\t' ∉ residual.name ∧ '\n' ∉ residual.name
  bytes : residual.bytes < usizeBound
  hash : Snapshot.Clean residual.hash ∧ '\t' ∉ residual.hash ∧ residual.hash ≠ []

/-- A manifest that `render` writes without loss. -/
structure Manifest.Clean (manifest : Manifest) : Prop where
  identity : manifest.identity.Clean
  snapshotBytes : manifest.snapshotBytes < usizeBound
  snapshotHash : Snapshot.Clean manifest.snapshotHash
  tableBytes : manifest.tableBytes < usizeBound
  tableHash : Snapshot.Clean manifest.tableHash
  residuals : ∀ residual ∈ manifest.residuals, residual.Clean

theorem Clean.decimal (n : Nat) : Clean (decimal n) := by
  constructor
  · exact notMem_decimal (by decide) n
  · intro c h
    have hdigit := isDigit_of_mem_decimal (List.mem_of_getLast? h)
    have hrange : 48 ≤ c.toNat ∧ c.toNat ≤ 57 := by
      simpa [Char.isDigit, UInt32.le_iff_toNat_le] using hdigit
    simp [isWhitespace]
    omega

/-- A fingerprint is made of hexadecimal digits. -/
theorem mem_fingerprint {bytes : List UInt8} {c : Char} (h : c ∈ fingerprint bytes) :
    ∃ d, d < 16 ∧ c = Nat.digitChar d := by
  have hdigits : ∀ n, c ∈ Nat.toDigits 16 n → ∃ d, d < 16 ∧ c = Nat.digitChar d := by
    intro n
    induction n using Nat.strongRecOn with
    | _ n ih =>
        rw [Nat.toDigits_eq_if (by decide)]
        split
        · rename_i hsmall
          intro mem
          exact ⟨n, hsmall, List.mem_singleton.mp mem⟩
        · intro mem
          rcases List.mem_append.mp mem with mem | mem
          · exact ih _ (Nat.div_lt_self (by omega) (by decide)) mem
          · exact ⟨n % 16, Nat.mod_lt _ (by decide), List.mem_singleton.mp mem⟩
  rcases List.mem_append.mp h with mem | mem
  · exact ⟨0, by decide, List.eq_of_mem_replicate mem⟩
  · exact hdigits _ mem

theorem fingerprint_ne {c : Char} (h : ∀ d, d < 16 → Nat.digitChar d ≠ c)
    (bytes : List UInt8) : c ∉ fingerprint bytes := by
  intro mem
  obtain ⟨d, hd, rfl⟩ := mem_fingerprint mem
  exact h d hd rfl

theorem Clean.fingerprint (bytes : List UInt8) : Clean (fingerprint bytes) := by
  constructor
  · exact fingerprint_ne (by decide) bytes
  · intro c h
    obtain ⟨d, hd, rfl⟩ := mem_fingerprint (List.mem_of_getLast? h)
    have hsolid : ∀ d, d < 16 → isWhitespace (Nat.digitChar d) = false := by decide
    exact hsolid d hd

/-! ### Reading a line back -/

/-- A key the reader cuts off again: no `=` or line break, and no leading white space. -/
def KeyText (key : Str) : Prop :=
  '=' ∉ key ∧ '\n' ∉ key ∧ key.head?.any (fun c => !isWhitespace c) = true

instance (key : Str) : Decidable (KeyText key) :=
  inferInstanceAs (Decidable (_ ∧ _ ∧ _))

theorem keyText_of_mem {key : Str} (h : key ∈ lit "residual" :: knownKeys) :
    KeyText key := by
  have hall : ∀ key ∈ lit "residual" :: knownKeys, KeyText key := by decide
  exact hall key h

/-- A field whose line is read back as it is. -/
structure FieldClean (field : Str × Str) : Prop where
  key : KeyText field.1
  value : Clean field.2

/-- The last character of a field's line is the value's, or the `=`. -/
theorem FieldClean.getLast? {field : Str × Str} (h : FieldClean field) {c : Char}
    (hlast : (fieldLine field).getLast? = some c) : isWhitespace c = false := by
  rw [fieldLine, List.getLast?_append_of_ne_nil _ (List.cons_ne_nil _ _),
    List.getLast?_cons] at hlast
  cases hvalue : field.2.getLast? with
  | none =>
      rw [hvalue] at hlast
      injection hlast with heq
      rw [← heq]
      decide
  | some d =>
      rw [hvalue] at hlast
      injection hlast with heq
      rw [← heq]
      exact h.value.last d hvalue

theorem FieldClean.single {field : Str × Str} (h : FieldClean field) :
    '\n' ∉ fieldLine field := by
  intro mem
  rcases List.mem_append.mp mem with mem | mem
  · exact h.key.2.1 mem
  · rcases List.mem_cons.mp mem with heq | mem
    · cases heq
    · exact h.value.single mem

theorem FieldClean.last {field : Str × Str} (h : FieldClean field) :
    (fieldLine field).getLast? ≠ some '\r' := by
  intro heq
  have hspace := h.getLast? heq
  revert hspace
  decide

theorem FieldClean.lines {field : Str × Str} (h : FieldClean field) (rest : Str) :
    lines (writeln (fieldLine field) ++ rest) = fieldLine field :: lines rest := by
  rw [writeln, List.append_assoc, List.singleton_append, lines_append h.single h.last]

/-- The trimming of a field's line changes nothing. -/
theorem FieldClean.trim {field : Str × Str} (h : FieldClean field) :
    trim isWhitespace (fieldLine field) = fieldLine field := by
  obtain ⟨_, _, hhead⟩ := h.key
  cases hkey : field.1 with
  | nil =>
      rw [hkey] at hhead
      cases hhead
  | cons c cs =>
      have hc : isWhitespace c = false := by
        rw [hkey] at hhead
        simpa using hhead
      have hline : fieldLine field = c :: (cs ++ '=' :: field.2) := by
        rw [fieldLine, hkey, List.cons_append]
      have hlast : isWhitespace ((c :: (cs ++ '=' :: field.2)).getLast
          (List.cons_ne_nil _ _)) = false := by
        refine h.getLast? ?_
        rw [hline]
        exact List.getLast?_eq_some_getLast _
      rw [hline]
      exact trim_eq_self hc hlast

theorem FieldClean.splitOnce {field : Str × Str} (h : FieldClean field) :
    splitOnce '=' (fieldLine field) = some (field.1, field.2) :=
  splitOnce_append h.key.1 field.2

theorem fieldLine_ne_nil (field : Str × Str) : fieldLine field ≠ [] := by
  simp [fieldLine]

/-- A known field is added to those read. -/
theorem parseLine_field {shown : Char → Bool} {field : Str × Str} (h : FieldClean field)
    (known : field.1 ∈ knownKeys) (number : Nat) (parsed : Parsed) :
    parseLine shown number (fieldLine field) parsed =
      .ok { parsed with fields := field :: parsed.fields } := by
  have hother : field.1 ≠ lit "residual" := by
    intro heq
    have hnot : lit "residual" ∉ knownKeys := by decide
    exact hnot (heq ▸ known)
  rw [parseLine]
  simp only [h.trim, if_neg (fieldLine_ne_nil field), h.splitOnce, if_neg hother, if_pos known]

/-- The value of a residual's line. -/
theorem parseResidual_residualField {residual : Residual} (h : residual.Clean) :
    parseResidual (residualField residual).2 = .ok residual := by
  have hbytes : '\t' ∉ decimal residual.bytes := notMem_decimal (by decide) _
  have hsplit : (residualField residual).2.splitOn '\t' =
      [residual.name, decimal residual.bytes, residual.hash] := by
    rw [residualField, List.splitOn_append_cons_self_of_not_mem h.name.2.1,
      List.splitOn_append_cons_self_of_not_mem hbytes, List.splitOn_eq_singleton h.hash.2.1]
  rw [parseResidual, hsplit]
  simp only [parseNat_decimal h.bytes, if_neg h.name.1]

theorem Residual.Clean.field {residual : Residual} (h : residual.Clean) :
    FieldClean (residualField residual) := by
  constructor
  · exact keyText_of_mem List.mem_cons_self
  · constructor
    · have hbytes : '\n' ∉ decimal residual.bytes := notMem_decimal (by decide) _
      simp [residualField, h.name.2.2, hbytes, h.hash.1.single]
    · intro c hlast
      have htail : (residualField residual).2 =
          (residual.name ++ '\t' :: decimal residual.bytes) ++ '\t' :: residual.hash := by
        simp [residualField]
      rw [htail, List.getLast?_append_of_ne_nil _ (List.cons_ne_nil _ _),
        List.getLast?_cons] at hlast
      cases hhash : residual.hash.getLast? with
      | none =>
          exact absurd (List.getLast?_eq_none_iff.mp hhash) h.hash.2.2
      | some d =>
          rw [hhash] at hlast
          injection hlast with heq
          rw [← heq]
          exact h.hash.1.last d hhash

/-- A residual's line adds it to those read. -/
theorem parseLine_residual {shown : Char → Bool} {residual : Residual} (h : residual.Clean)
    (number : Nat) (parsed : Parsed) :
    parseLine shown number (fieldLine (residualField residual)) parsed =
      .ok { parsed with residuals := parsed.residuals ++ [residual] } := by
  have hkey : (residualField residual).1 = lit "residual" := rfl
  rw [parseLine]
  simp only [h.field.trim, if_neg (fieldLine_ne_nil _), h.field.splitOnce, if_pos hkey,
    parseResidual_residualField h]

/-! ### Reading a manifest back -/

theorem lines_fields {fields : List (Str × Str)} (h : ∀ field ∈ fields, FieldClean field) :
    lines (fields.flatMap fun field => writeln (fieldLine field)) = fields.map fieldLine := by
  induction fields with
  | nil => rfl
  | cons field fields ih =>
      have htail : ∀ field ∈ fields, FieldClean field :=
        fun field mem => h field (List.mem_cons_of_mem _ mem)
      rw [List.flatMap_cons, (h field List.mem_cons_self).lines, ih htail, List.map_cons]

/-- Known fields in a row. -/
theorem parseLines_fields {shown : Char → Bool} {fields : List (Str × Str)}
    (h : ∀ field ∈ fields, FieldClean field ∧ field.1 ∈ knownKeys) (number : Nat)
    (rest : List Str) (parsed : Parsed) :
    parseLines shown number (fields.map fieldLine ++ rest) parsed =
      parseLines shown (number + fields.length) rest
        { parsed with fields := fields.reverse ++ parsed.fields } := by
  induction fields generalizing number parsed with
  | nil => rfl
  | cons field fields ih =>
      obtain ⟨hclean, hknown⟩ := h field List.mem_cons_self
      have htail : ∀ field ∈ fields, FieldClean field ∧ field.1 ∈ knownKeys :=
        fun field mem => h field (List.mem_cons_of_mem _ mem)
      rw [List.map_cons, List.cons_append, parseLines, parseLine_field hclean hknown]
      simp only
      rw [ih htail, List.length_cons, List.reverse_cons, List.append_assoc]
      simp only [List.singleton_append, Nat.add_assoc, Nat.add_comm 1]

/-- Residuals in a row. -/
theorem parseLines_residuals {shown : Char → Bool} {residuals : List Residual}
    (h : ∀ residual ∈ residuals, residual.Clean) (number : Nat) (parsed : Parsed) :
    parseLines shown number ((residuals.map residualField).map fieldLine) parsed =
      .ok { parsed with residuals := parsed.residuals ++ residuals } := by
  induction residuals generalizing number parsed with
  | nil => simp [parseLines]
  | cons residual residuals ih =>
      have htail : ∀ residual ∈ residuals, residual.Clean :=
        fun residual mem => h residual (List.mem_cons_of_mem _ mem)
      rw [List.map_cons, List.map_cons, parseLines,
        parseLine_residual (h residual List.mem_cons_self)]
      simp only
      rw [ih htail]
      simp only [List.append_assoc, List.singleton_append]

theorem headerFields_known (manifest : Manifest) :
    ∀ field ∈ headerFields manifest, field.1 ∈ knownKeys := by
  intro field mem
  have hkeys : (headerFields manifest).map Prod.fst = knownKeys := rfl
  rw [← hkeys]
  exact List.mem_map_of_mem mem

theorem format_clean : Clean format := by decide

theorem Manifest.Clean.header {manifest : Manifest} (h : manifest.Clean) :
    ∀ field ∈ headerFields manifest, FieldClean field := by
  have hvalues : ∀ value ∈ (headerFields manifest).map Prod.snd, Snapshot.Clean value := by
    simp only [headerFields, List.map_cons, List.map_nil, List.forall_mem_cons]
    exact ⟨format_clean, h.identity.libdeno, h.identity.target, h.identity.v8,
      h.identity.typescript, h.identity.denoCore, h.identity.denoRuntime, .decimal _,
      h.snapshotHash, .decimal _, h.tableHash, by simp⟩
  intro field mem
  have hknown := headerFields_known manifest field mem
  exact ⟨keyText_of_mem (List.mem_cons_of_mem _ hknown),
    hvalues _ (List.mem_map_of_mem mem)⟩

/-- The fields of a manifest give it back. -/
theorem manifest_headerFields {manifest : Manifest} (h : manifest.Clean) :
    (⟨(headerFields manifest).reverse, manifest.residuals⟩ : Parsed).manifest =
      .ok manifest := by
  have hnumber : ∀ (parsed : Parsed) (key : String) (n : Nat), n < usizeBound →
      parsed.get key = .ok (decimal n) → parsed.number key = .ok n := by
    intro parsed key n hn hget
    rw [Parsed.number, hget]
    simp only
    rw [parseNat_decimal hn]
  have hsnapshot := hnumber ⟨(headerFields manifest).reverse, manifest.residuals⟩
    "snapshot-bytes" _ h.snapshotBytes rfl
  have htable := hnumber ⟨(headerFields manifest).reverse, manifest.residuals⟩
    "table-bytes" _ h.tableBytes rfl
  rw [Parsed.manifest, hsnapshot, htable]
  rfl

/-- What is rendered is parsed back. -/
theorem parse_render {shown : Char → Bool} {manifest : Manifest} (h : manifest.Clean) :
    parse shown (render manifest) = .ok manifest := by
  have hresiduals : ∀ field ∈ manifest.residuals.map residualField, FieldClean field := by
    intro field mem
    obtain ⟨residual, hmem, rfl⟩ := List.mem_map.mp mem
    exact (h.residuals residual hmem).field
  have hall : ∀ field ∈ headerFields manifest ++ manifest.residuals.map residualField,
      FieldClean field := by
    intro field mem
    rcases List.mem_append.mp mem with mem | mem
    · exact h.header field mem
    · exact hresiduals field mem
  have hheader : ∀ field ∈ headerFields manifest, FieldClean field ∧ field.1 ∈ knownKeys :=
    fun field mem => ⟨h.header field mem, headerFields_known manifest field mem⟩
  rw [parse, render, lines_fields hall, List.map_append, parseLines_fields hheader,
    parseLines_residuals h.residuals]
  simp only [List.append_nil, List.nil_append]
  exact manifest_headerFields h

end Libdeno.Snapshot
