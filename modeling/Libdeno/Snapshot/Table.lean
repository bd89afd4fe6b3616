import Libdeno.Library.Lines

/-!
# Libdeno.Snapshot.Table

The residual table: Rust source text that `build.rs` writes and `snapshot_bundle.rs` scans
again for the files it includes. The writer escapes specifiers and paths as `{:?}` does;
the scanner looks for the last two quotes of a line and undoes no escape, so it reads back
what was written only where nothing in the path was escaped.
-/

namespace Libdeno.Snapshot

open Lines

/-- A text, as its characters. -/
abbrev Str := List Char

instance : LawfulBEq Str := inferInstance

/-- A text the program has as a literal. -/
def lit (text : String) : Str := text.toList

/-! ### String literals -/

/-- One character as `{:?}` prints it in a string. `shown` says which characters beyond
ASCII are printed as they are. -/
def escapeDebug (shown : Char → Bool) (c : Char) : Str :=
  if c = '\x00' then lit "\\0"
  else if c = '\t' then lit "\\t"
  else if c = '\r' then lit "\\r"
  else if c = '\n' then lit "\\n"
  else if c = '\\' then lit "\\\\"
  else if c = '"' then lit "\\\""
  else if (32 ≤ c.toNat && c.toNat < 127) || (127 < c.toNat && shown c) then [c]
  else ['\\', 'u', '\x7b'] ++ Nat.toDigits 16 c.toNat ++ ['\x7d']

/-- `{text:?}`. -/
def debug (shown : Char → Bool) (text : Str) : Str :=
  '"' :: text.flatMap (escapeDebug shown) ++ ['"']

/-- The digits of a number are digits. -/
theorem notMem_toDigits {b : Nat} (hb : 1 < b) {c : Char} (h : ∀ d, Nat.digitChar d ≠ c)
    (n : Nat) : c ∉ Nat.toDigits b n := by
  induction n using Nat.strongRecOn with
  | _ n ih =>
      rw [Nat.toDigits_eq_if hb]
      split
      · intro mem
        exact h n (List.mem_singleton.mp mem).symm
      · intro mem
        rcases List.mem_append.mp mem with mem | mem
        · exact ih _ (Nat.div_lt_self (by omega) hb) mem
        · exact h _ (List.mem_singleton.mp mem).symm

theorem digitChar_ne_newline (d : Nat) : Nat.digitChar d ≠ '\n' := by
  have hsmall : ∀ d, d < 16 → Nat.digitChar d ≠ '\n' := by decide
  by_cases hd : d < 16
  · exact hsmall d hd
  · rw [Nat.digitChar_eq_star.mpr (by omega)]
    decide

theorem newline_notMem_escapeDebug (shown : Char → Bool) (c : Char) :
    '\n' ∉ escapeDebug shown c := by
  rw [escapeDebug]
  split
  · decide
  · split
    · decide
    · split
      · decide
      · split
        · decide
        · rename_i hline
          split
          · decide
          · split
            · decide
            · split
              · intro mem
                exact hline (List.mem_singleton.mp mem).symm
              · have hhex := notMem_toDigits (show 1 < 16 by decide) digitChar_ne_newline c.toNat
                simp [hhex]

/-- No literal has a line break in it, whatever text it stands for. -/
theorem newline_notMem_debug (shown : Char → Bool) (text : Str) :
    '\n' ∉ debug shown text := by
  have hbody : '\n' ∉ text.flatMap (escapeDebug shown) := by
    intro mem
    obtain ⟨c, _, hc⟩ := List.mem_flatMap.mp mem
    exact newline_notMem_escapeDebug shown c hc
  simp [debug, hbody]

/-- A text that `{:?}` prints as it is, between quotes. -/
def Unescaped (shown : Char → Bool) (text : Str) : Prop :=
  ∀ c ∈ text, escapeDebug shown c = [c]

instance (shown : Char → Bool) (text : Str) : Decidable (Unescaped shown text) :=
  List.decidableBAll (fun c => escapeDebug shown c = [c]) text

theorem Unescaped.debug_eq {shown : Char → Bool} {text : Str} (h : Unescaped shown text) :
    debug shown text = '"' :: text ++ ['"'] := by
  have hbody : text.flatMap (escapeDebug shown) = text := by
    rw [List.flatMap_congr h, List.flatMap_singleton']
  rw [debug, hbody]

theorem Unescaped.notMem {shown : Char → Bool} {text : Str} (h : Unescaped shown text)
    {c : Char} (hc : escapeDebug shown c ≠ [c]) : c ∉ text := by
  intro mem
  exact hc (h c mem)

/-- Quotes, backslashes, tabs and line breaks are always escaped. -/
theorem Unescaped.plain {shown : Char → Bool} {text : Str} (h : Unescaped shown text) :
    '"' ∉ text ∧ '\\' ∉ text ∧ '\t' ∉ text ∧ '\n' ∉ text := by
  refine ⟨?_, ?_, ?_, ?_⟩
  · exact h.notMem (by simp [escapeDebug, lit])
  · exact h.notMem (by simp [escapeDebug, lit])
  · exact h.notMem (by simp [escapeDebug, lit])
  · exact h.notMem (by simp [escapeDebug, lit])

/-! ### Writing the table -/

/-- The separators of a path, made `/` on every platform. -/
def normalize (path : Str) : Str := path.map fun c => if c = '\\' then '/' else c

theorem normalize_eq_self {path : Str} (h : '\\' ∉ path) : normalize path = path := by
  have hsame : ∀ c ∈ path, (if c = '\\' then '/' else c) = id c := by
    intro c mem
    have hne : c ≠ '\\' := by
      rintro rfl
      exact h mem
    rw [if_neg hne]
    rfl
  rw [normalize, List.map_congr_left hsame, List.map_id]

/-- `table_path`. -/
def tablePath (rel : Str) : Str := '/' :: normalize rel

/-- The specifier of a residual source and its path below `OUT_DIR`. -/
abbrev Entry := Str × Str

/-- `sort_by_key(|(specifier, _)| *specifier)`. -/
def sortEntries (entries : List Entry) : List Entry :=
  entries.insertionSort fun a b => a.1 ≤ b.1

/-- The macro that marks a line of the table. -/
def includeMacro : Str := lit "include_str!"

/-- The line of one entry, without its end. -/
def entryLine (shown : Char → Bool) (entry : Entry) : Str :=
  lit "  (" ++ debug shown entry.1 ++ lit ", " ++ includeMacro ++
    lit "(concat!(env!(\"OUT_DIR\"), " ++ debug shown (tablePath entry.2) ++ lit "))),"

/-- `writeln!` of a text. -/
def writeln (line : Str) : Str := line ++ ['\n']

/-- The first line of a table. -/
def tableHead (name : Str) : Str :=
  lit "pub static " ++ name ++ lit ": &[(&str, &str)] = &["

/-- `write_residual_table`; it ends with an empty line. -/
def writeResidualTable (shown : Char → Bool) (name : Str) (entries : List Entry) : Str :=
  writeln (tableHead name) ++
    (sortEntries entries).flatMap (fun entry => writeln (entryLine shown entry)) ++
    (writeln (lit "];") ++ writeln [])

/-- The table `build.rs` generates: a comment and an empty line, the scripts, the modules. -/
def residualTable (shown : Char → Bool) (js esm : List Entry) : Str :=
  writeln (lit "// @generated by build.rs - do not edit.") ++ writeln [] ++
    (writeResidualTable shown (lit "RESIDUAL_LAZY_JS") js ++
      writeResidualTable shown (lit "RESIDUAL_LAZY_ESM") esm)

/-! ### Scanning it -/

/-- The file a line includes: what is between its last two quotes. -/
def lineSource (line : Str) : Option Str :=
  if includeMacro <:+: line then
    match rsplitOnce '"' line with
    | none => none
    | some (before, _) =>
        match rsplitOnce '"' before with
        | none => none
        | some (_, source) => some (source.dropWhile (· = '/'))
  else none

/-- `table_sources`. -/
def tableSources (table : Str) : List Str := (lines table).filterMap lineSource

/-! ### Reading back what was written -/

/-- A path the table carries as it is: `{:?}` escapes nothing in it, and it is relative. -/
structure Written (shown : Char → Bool) (rel : Str) : Prop where
  unescaped : Unescaped shown (normalize rel)
  relative : (normalize rel).head? ≠ some '/'

/-- The scanner takes one line at a time. -/
theorem tableSources_writeln {line : Str} (single : '\n' ∉ line)
    (h : line.getLast? ≠ some '\r') (rest : Str) :
    tableSources (writeln line ++ rest) = (lineSource line).toList ++ tableSources rest := by
  rw [writeln, List.append_assoc, List.singleton_append, tableSources, lines_append single h,
    List.filterMap_cons]
  cases hsource : lineSource line with
  | none => rfl
  | some source => rfl

/-- A line of the generated text that is no entry: without line breaks, and without the
exclamation mark of the macro. -/
def Bare (line : Str) : Prop := ∀ c ∈ line, c ∉ ['\n', '\r', '!']

instance (line : Str) : Decidable (Bare line) :=
  List.decidableBAll (fun c => c ∉ ['\n', '\r', '!']) line

theorem Bare.append {a b : Str} (ha : Bare a) (hb : Bare b) : Bare (a ++ b) := by
  intro c mem
  rcases List.mem_append.mp mem with mem | mem
  · exact ha c mem
  · exact hb c mem

/-- Such a line contributes nothing. -/
theorem Bare.tableSources {line : Str} (h : Bare line) (rest : Str) :
    tableSources (writeln line ++ rest) = tableSources rest := by
  have hsingle : '\n' ∉ line := fun mem => h _ mem (by decide)
  have hlast : line.getLast? ≠ some '\r' :=
    fun heq => h _ (List.mem_of_getLast? heq) (by decide)
  have hmacro : ¬ includeMacro <:+: line := by
    intro hsub
    have mem : '!' ∈ includeMacro := by decide
    exact h _ (hsub.subset mem) (by decide)
  rw [tableSources_writeln hsingle hlast, lineSource, if_neg hmacro]
  rfl

/-- The literal of a path that is written as it is. -/
theorem Written.debug_tablePath {shown : Char → Bool} {rel : Str} (h : Written shown rel) :
    debug shown (tablePath rel) = '"' :: tablePath rel ++ ['"'] := by
  have hslash : escapeDebug shown '/' = ['/'] := by simp [escapeDebug]
  refine Unescaped.debug_eq ?_
  intro c mem
  rcases List.mem_cons.mp mem with rfl | mem
  · exact hslash
  · exact h.unescaped c mem

theorem Written.notMem_tablePath {shown : Char → Bool} {rel : Str} (h : Written shown rel) :
    '"' ∉ tablePath rel := by
  intro mem
  rcases List.mem_cons.mp mem with heq | mem
  · cases heq
  · exact h.unescaped.plain.1 mem

/-- The two quotes of a literal, seen from the scanner. -/
theorem quoted_append (before text after : Str) :
    before ++ ('"' :: text ++ ['"']) ++ after = (before ++ '"' :: text) ++ '"' :: after := by
  simp

/-- The path comes back from its line, whatever the specifier beside it. -/
theorem lineSource_entryLine {shown : Char → Bool} {entry : Entry}
    (h : Written shown entry.2) :
    lineSource (entryLine shown entry) = some (normalize entry.2) := by
  have hmacro : includeMacro <:+: entryLine shown entry := by
    refine ⟨lit "  (" ++ debug shown entry.1 ++ lit ", ",
      lit "(concat!(env!(\"OUT_DIR\"), " ++ debug shown (tablePath entry.2) ++
        lit "))),", ?_⟩
    simp only [entryLine, List.append_assoc]
  have hline : entryLine shown entry =
      ((lit "  (" ++ debug shown entry.1 ++ lit ", " ++ includeMacro ++
        lit "(concat!(env!(\"OUT_DIR\"), ") ++ '"' :: tablePath entry.2) ++
        '"' :: lit ")))," := by
    rw [entryLine, h.debug_tablePath]
    exact quoted_append _ _ _
  have hdrop : (tablePath entry.2).dropWhile (· = '/') = normalize entry.2 := by
    rw [tablePath, List.dropWhile_cons_of_pos (by simp)]
    cases hrel : normalize entry.2 with
    | nil => rfl
    | cons c cs =>
        have hc : c ≠ '/' := by
          rintro rfl
          exact h.relative (by rw [hrel]; rfl)
        rw [List.dropWhile_cons_of_neg (by simpa using hc)]
  have hend : '"' ∉ lit ")))," := by decide
  rw [lineSource, if_pos hmacro, hline, rsplitOnce_append hend]
  simp only
  rw [rsplitOnce_append h.notMem_tablePath]
  simp only
  rw [hdrop]

theorem newline_notMem_entryLine (shown : Char → Bool) (entry : Entry) :
    '\n' ∉ entryLine shown entry := by
  have hspecifier := newline_notMem_debug shown entry.1
  have hpath := newline_notMem_debug shown (tablePath entry.2)
  have hopen : '\n' ∉ lit "  (" := by decide
  have hcomma : '\n' ∉ lit ", " := by decide
  have hmacro : '\n' ∉ includeMacro := by decide
  have henv : '\n' ∉ lit "(concat!(env!(\"OUT_DIR\"), " := by decide
  have hend : '\n' ∉ lit ")))," := by decide
  simp only [entryLine, List.mem_append, hspecifier, hpath, hopen, hcomma, hmacro, henv, hend,
    or_self, not_false_eq_true]

theorem getLast?_entryLine (shown : Char → Bool) (entry : Entry) :
    (entryLine shown entry).getLast? ≠ some '\r' := by
  rw [entryLine, List.getLast?_append]
  show (some ',').or _ ≠ some '\r'
  simp

/-- The lines of a list of entries. -/
theorem tableSources_entries {shown : Char → Bool} {entries : List Entry}
    (h : ∀ entry ∈ entries, Written shown entry.2) (rest : Str) :
    tableSources (entries.flatMap (fun entry => writeln (entryLine shown entry)) ++ rest) =
      entries.map (fun entry => normalize entry.2) ++ tableSources rest := by
  induction entries with
  | nil => rfl
  | cons entry entries ih =>
      have hhead := h entry List.mem_cons_self
      have htail : ∀ entry ∈ entries, Written shown entry.2 :=
        fun entry mem => h entry (List.mem_cons_of_mem _ mem)
      rw [List.flatMap_cons, List.append_assoc,
        tableSources_writeln (newline_notMem_entryLine shown entry)
          (getLast?_entryLine shown entry),
        lineSource_entryLine hhead, ih htail]
      rfl

theorem mem_sortEntries {entries : List Entry} {entry : Entry} :
    entry ∈ sortEntries entries ↔ entry ∈ entries :=
  List.mem_insertionSort _

/-- One table of the file, under a name of its own. -/
theorem tableSources_writeResidualTable {shown : Char → Bool} {name : Str}
    {entries : List Entry} (bare : Bare name)
    (h : ∀ entry ∈ entries, Written shown entry.2) (rest : Str) :
    tableSources (writeResidualTable shown name entries ++ rest) =
      (sortEntries entries).map (fun entry => normalize entry.2) ++ tableSources rest := by
  have hsorted : ∀ entry ∈ sortEntries entries, Written shown entry.2 :=
    fun entry mem => h entry (mem_sortEntries.mp mem)
  have hhead : Bare (tableHead name) :=
    (Bare.append (show Bare (lit "pub static ") by decide) bare).append
      (show Bare (lit ": &[(&str, &str)] = &[") by decide)
  have hend : Bare (lit "];") := by decide
  have hempty : Bare [] := by decide
  rw [writeResidualTable, List.append_assoc, List.append_assoc, hhead.tableSources,
    tableSources_entries hsorted, List.append_assoc, hend.tableSources, hempty.tableSources]

/-- The sources read from a generated table are the paths that were written, in order. -/
theorem tableSources_residualTable {shown : Char → Bool} {js esm : List Entry}
    (h : ∀ entry ∈ js ++ esm, Written shown entry.2) :
    tableSources (residualTable shown js esm) =
      (sortEntries js ++ sortEntries esm).map fun entry => normalize entry.2 := by
  have hjs : ∀ entry ∈ js, Written shown entry.2 :=
    fun entry mem => h entry (List.mem_append_left _ mem)
  have hesm : ∀ entry ∈ esm, Written shown entry.2 :=
    fun entry mem => h entry (List.mem_append_right _ mem)
  have hcomment : Bare (lit "// @generated by build.rs - do not edit.") := by decide
  have hempty : Bare [] := by decide
  have htail := tableSources_writeResidualTable
    (show Bare (lit "RESIDUAL_LAZY_ESM") by decide) hesm []
  have hnil : tableSources [] = [] := rfl
  rw [hnil, List.append_nil, List.append_nil] at htail
  rw [residualTable, List.append_assoc, hcomment.tableSources, hempty.tableSources,
    tableSources_writeResidualTable (show Bare (lit "RESIDUAL_LAZY_JS") by decide) hjs, htail,
    List.map_append]

end Libdeno.Snapshot
