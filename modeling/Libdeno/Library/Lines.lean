import Mathlib

/-!
# Libdeno.Library.Lines

**Line-oriented texts as lists of characters.** Cutting at the first or the last
separator, cutting into lines, trimming, decimal numbers, sorted lists without
repetition, and UTF-8. Every scanner comes with the lemma that reads off the front what
was written there, up to a separator that does not occur in it.
-/

namespace Lines

/-- A check of every element. For `decide`, which may otherwise go through all values of the
type of the elements. -/
theorem forall_mem_of_all {α : Type*} {p : α → Prop} [DecidablePred p] {xs : List α}
    (h : (xs.all fun x => decide (p x)) = true) : ∀ x ∈ xs, p x := by
  intro x mem
  exact of_decide_eq_true (List.all_eq_true.mp h x mem)

section Cutting

variable {α : Type*} [DecidableEq α]

/-! ### Cutting at a separator -/

/-- What is before and after the first `sep`. -/
def splitOnce (sep : α) : List α → Option (List α × List α)
  | [] => none
  | x :: xs =>
      if x = sep then some ([], xs) else (splitOnce sep xs).map fun p => (x :: p.1, p.2)

/-- What is before and after the last `sep`. -/
def rsplitOnce (sep : α) (xs : List α) : Option (List α × List α) :=
  (splitOnce sep xs.reverse).map fun p => (p.2.reverse, p.1.reverse)

theorem splitOnce_append_left {sep : α} {before : List α} (h : sep ∉ before) (rest : List α) :
    splitOnce sep (before ++ rest) =
      (splitOnce sep rest).map fun p => (before ++ p.1, p.2) := by
  induction before with
  | nil => simp
  | cons x before ih =>
      have hne : x ≠ sep := by
        intro heq
        exact h (heq ▸ List.mem_cons_self)
      have hrest : sep ∉ before := fun mem => h (List.mem_cons_of_mem _ mem)
      rw [List.cons_append, splitOnce, if_neg hne, ih hrest, Option.map_map]
      rfl

theorem splitOnce_append {sep : α} {before : List α} (h : sep ∉ before) (after : List α) :
    splitOnce sep (before ++ sep :: after) = some (before, after) := by
  rw [splitOnce_append_left h]
  simp [splitOnce]

theorem splitOnce_of_notMem {sep : α} {xs : List α} (h : sep ∉ xs) : splitOnce sep xs = none := by
  have hnil := splitOnce_append_left h []
  rwa [List.append_nil] at hnil

theorem rsplitOnce_append {sep : α} {after : List α} (h : sep ∉ after) (before : List α) :
    rsplitOnce sep (before ++ sep :: after) = some (before, after) := by
  have hrev : (before ++ sep :: after).reverse = after.reverse ++ sep :: before.reverse := by
    simp
  rw [rsplitOnce, hrev, splitOnce_append (by simpa using h)]
  simp

/-- What is before and after the first occurrence of the text `pat`. -/
def splitOnceText (pat : List α) : List α → Option (List α × List α)
  | [] => if pat = [] then some ([], []) else none
  | x :: xs =>
      if pat <+: x :: xs then some ([], (x :: xs).drop pat.length)
      else (splitOnceText pat xs).map fun p => (x :: p.1, p.2)

theorem splitOnceText_append {c : α} {before : List α} (h : c ∉ before) (pat after : List α) :
    splitOnceText (c :: pat) (before ++ (c :: pat ++ after)) = some (before, after) := by
  induction before with
  | nil =>
      have hstart : c :: pat <+: c :: (pat ++ after) := List.prefix_append (c :: pat) after
      rw [List.nil_append, List.cons_append, splitOnceText, if_pos hstart]
      simp
  | cons x before ih =>
      have hne : ¬ c :: pat <+: x :: (before ++ (c :: pat ++ after)) := by
        intro hstart
        exact h (List.mem_cons.mpr (.inl (List.cons_prefix_cons.mp hstart).1))
      have hrest : c ∉ before := fun mem => h (List.mem_cons_of_mem _ mem)
      rw [List.cons_append, splitOnceText, if_neg hne, ih hrest]
      rfl

theorem rsplitOnce_of_notMem {sep : α} {xs : List α} (h : sep ∉ xs) :
    rsplitOnce sep xs = none := by
  rw [rsplitOnce, splitOnce_of_notMem (by simpa using h)]
  rfl

theorem splitOnce_some {sep : α} {xs before after : List α}
    (h : splitOnce sep xs = some (before, after)) :
    xs = before ++ sep :: after ∧ sep ∉ before := by
  induction xs generalizing before with
  | nil => cases h
  | cons x xs ih =>
      rw [splitOnce] at h
      split at h
      · rename_i hx
        obtain ⟨rfl, rfl⟩ := Prod.mk.inj (Option.some.inj h)
        exact ⟨by rw [hx]; rfl, List.not_mem_nil⟩
      · rename_i hx
        obtain ⟨⟨before', after'⟩, hrest, heq⟩ := Option.map_eq_some_iff.mp h
        obtain ⟨rfl, rfl⟩ := Prod.mk.inj heq
        obtain ⟨hxs, hno⟩ := ih hrest
        refine ⟨by rw [hxs]; rfl, fun mem => ?_⟩
        rcases List.mem_cons.mp mem with rfl | mem
        · exact hx rfl
        · exact hno mem

theorem splitOnce_none {sep : α} {xs : List α} (h : splitOnce sep xs = none) : sep ∉ xs := by
  induction xs with
  | nil => exact List.not_mem_nil
  | cons x xs ih =>
      rw [splitOnce] at h
      split at h
      · cases h
      · rename_i hx
        intro mem
        rcases List.mem_cons.mp mem with rfl | mem
        · exact hx rfl
        · exact ih (Option.map_eq_none_iff.mp h) mem

/-- The first occurrence of a text is one, and no other is further to the front. -/
theorem splitOnceText_some {pat xs before after : List α}
    (h : splitOnceText pat xs = some (before, after)) :
    xs = before ++ (pat ++ after) ∧
      ∀ before' after', xs = before' ++ (pat ++ after') → before.length ≤ before'.length := by
  induction xs generalizing before with
  | nil =>
      rw [splitOnceText] at h
      split at h
      · rename_i hpat
        obtain ⟨rfl, rfl⟩ := Prod.mk.inj (Option.some.inj h)
        exact ⟨by rw [hpat]; rfl, fun _ _ _ => Nat.zero_le _⟩
      · cases h
  | cons x xs ih =>
      rw [splitOnceText] at h
      split at h
      · rename_i hstart
        obtain ⟨rfl, rfl⟩ := Prod.mk.inj (Option.some.inj h)
        refine ⟨?_, fun _ _ _ => Nat.zero_le _⟩
        obtain ⟨rest, hrest⟩ := hstart
        rw [← hrest, List.drop_left]
        rfl
      · rename_i hstart
        obtain ⟨⟨before', after'⟩, hrest, heq⟩ := Option.map_eq_some_iff.mp h
        obtain ⟨rfl, rfl⟩ := Prod.mk.inj heq
        obtain ⟨hxs, hfirst⟩ := ih hrest
        refine ⟨by rw [hxs]; rfl, fun before'' after'' hother => ?_⟩
        cases before'' with
        | nil => exact absurd ⟨after'', hother.symm⟩ hstart
        | cons y before'' => exact Nat.succ_le_succ (hfirst _ _ (List.cons.inj hother).2)

theorem splitOnceText_none {pat xs : List α} (h : splitOnceText pat xs = none)
    (before after : List α) : xs ≠ before ++ (pat ++ after) := by
  induction xs generalizing before with
  | nil =>
      intro heq
      obtain ⟨-, hrest⟩ := List.append_eq_nil_iff.mp heq.symm
      rw [splitOnceText, if_pos (List.append_eq_nil_iff.mp hrest).1] at h
      cases h
  | cons x xs ih =>
      rw [splitOnceText] at h
      split at h
      · cases h
      · rename_i hstart
        intro heq
        cases before with
        | nil => exact hstart ⟨after, heq.symm⟩
        | cons y before => exact ih (Option.map_eq_none_iff.mp h) before (List.cons.inj heq).2

/-- Cut after every `sep`, which stays with the piece it ends. -/
def splitInclusive (sep : α) : List α → List (List α)
  | [] => []
  | x :: xs =>
      if x = sep then [x] :: splitInclusive sep xs
      else
        match splitInclusive sep xs with
        | [] => [[x]]
        | piece :: pieces => (x :: piece) :: pieces

theorem splitInclusive_append {sep : α} {line : List α} (h : sep ∉ line) (rest : List α) :
    splitInclusive sep (line ++ sep :: rest) = (line ++ [sep]) :: splitInclusive sep rest := by
  induction line with
  | nil => simp [splitInclusive]
  | cons x line ih =>
      have hne : x ≠ sep := by
        intro heq
        exact h (heq ▸ List.mem_cons_self)
      have hrest : sep ∉ line := fun mem => h (List.mem_cons_of_mem _ mem)
      rw [List.cons_append, splitInclusive, if_neg hne, ih hrest]
      rfl

/-- Nothing is lost by cutting. -/
theorem flatten_splitInclusive (sep : α) (xs : List α) :
    (splitInclusive sep xs).flatten = xs := by
  induction xs with
  | nil => rfl
  | cons x xs ih =>
      rw [splitInclusive]
      split
      · rw [List.flatten_cons, ih]
        rfl
      · split
        · rename_i heq
          rw [heq] at ih
          rw [← ih]
          rfl
        · rename_i piece pieces heq
          rw [heq, List.flatten_cons] at ih
          rw [List.flatten_cons, List.cons_append, ih]

/-- Cutting a text whose first part ends with a separator. -/
theorem splitInclusive_part (sep : α) (part rest : List α) :
    splitInclusive sep (part ++ sep :: rest) =
      splitInclusive sep (part ++ [sep]) ++ splitInclusive sep rest := by
  induction part with
  | nil => simp [splitInclusive]
  | cons x part ih =>
      rw [List.cons_append, List.cons_append, splitInclusive, splitInclusive, ih]
      split
      · rfl
      · cases hpart : splitInclusive sep (part ++ [sep]) with
        | nil =>
            exfalso
            cases part with
            | nil => simp [splitInclusive] at hpart
            | cons y part =>
                rw [List.cons_append, splitInclusive] at hpart
                split at hpart
                · cases hpart
                · split at hpart <;> cases hpart
        | cons piece pieces => rfl

/-! ### Trimming -/

/-- Drop from both ends what `p` holds of. -/
def trim (p : α → Bool) (xs : List α) : List α := (xs.dropWhile p).rdropWhile p

omit [DecidableEq α] in
/-- Nothing is trimmed where neither end is to be dropped. -/
theorem trim_eq_self {p : α → Bool} {x : α} {xs : List α} (head : p x = false)
    (last : p ((x :: xs).getLast (List.cons_ne_nil _ _)) = false) :
    trim p (x :: xs) = x :: xs := by
  rw [trim, List.dropWhile_cons_of_neg (by simp [head]), List.rdropWhile_eq_self_iff]
  intro hne
  simp [last]

end Cutting

/-! ### Lines -/

/-- Take the line ending off: `\n`, or `\r\n`. -/
def chomp (line : List Char) : List Char :=
  match line.reverse with
  | '\n' :: '\r' :: rest => rest.reverse
  | '\n' :: rest => rest.reverse
  | _ => line

/-- The lines of a text. -/
def lines (text : List Char) : List (List Char) := (splitInclusive '\n' text).map chomp

theorem chomp_append {line : List Char} (h : line.getLast? ≠ some '\r') :
    chomp (line ++ ['\n']) = line := by
  rw [chomp, List.reverse_append]
  cases hrev : line.reverse with
  | nil =>
      have hnil : line = [] := List.reverse_eq_nil_iff.mp hrev
      rw [hnil]
      rfl
  | cons c rest =>
      have hline : line = rest.reverse ++ [c] := by
        rw [← List.reverse_reverse line, hrev, List.reverse_cons]
      have hc : c ≠ '\r' := by
        rintro rfl
        exact h (by rw [hline]; simp)
      rw [hline]
      show (match '\n' :: c :: rest with
        | '\n' :: '\r' :: rest => rest.reverse
        | '\n' :: rest => rest.reverse
        | _ => rest.reverse ++ [c] ++ ['\n']) = rest.reverse ++ [c]
      split
      · rename_i heq
        injection heq with _ heq
        injection heq with heq _
        exact absurd heq hc
      · rename_i heq
        injection heq with _ heq
        rw [← heq, List.reverse_cons]
      · rename_i hno
        exact absurd rfl (hno _)

/-- A line is read off the front of a text. -/
theorem lines_append {line : List Char} (single : '\n' ∉ line)
    (h : line.getLast? ≠ some '\r') (rest : List Char) :
    lines (line ++ '\n' :: rest) = line :: lines rest := by
  rw [lines, splitInclusive_append single, List.map_cons, chomp_append h]
  rfl

@[simp] theorem lines_nil : lines [] = [] := rfl

theorem lines_part (part rest : List Char) :
    lines (part ++ '\n' :: rest) = lines (part ++ ['\n']) ++ lines rest := by
  rw [lines, splitInclusive_part, List.map_append]
  rfl

/-- A line in the middle of a text, whatever is before it. -/
theorem mem_lines {line : List Char} (single : '\n' ∉ line)
    (h : line.getLast? ≠ some '\r') (before after : List Char) :
    line ∈ lines (before ++ '\n' :: (line ++ '\n' :: after)) := by
  rw [lines_part, lines_append single h]
  exact List.mem_append_right _ List.mem_cons_self

/-- The characters with the Unicode property `White_Space`. -/
def isWhitespace (c : Char) : Bool :=
  (9 ≤ c.toNat && c.toNat ≤ 13) || c.toNat = 0x20 || c.toNat = 0x85 || c.toNat = 0xa0 ||
    c.toNat = 0x1680 || (0x2000 ≤ c.toNat && c.toNat ≤ 0x200a) || c.toNat = 0x2028 ||
    c.toNat = 0x2029 || c.toNat = 0x202f || c.toNat = 0x205f || c.toNat = 0x3000

/-! ### Decimal numbers -/

/-- A number as it is printed. -/
def decimal (n : Nat) : List Char := Nat.toDigits 10 n

/-- Read a number below `bound`: digits, after an optional plus sign. -/
def parseNat (bound : Nat) (text : List Char) : Option Nat :=
  let digits :=
    match text with
    | '+' :: digits => digits
    | digits => digits
  if digits.isEmpty || !digits.all Char.isDigit then none
  else
    let n := Nat.ofDigitChars 10 digits 0
    if n < bound then some n else none

theorem isDigit_of_mem_decimal {n : Nat} {c : Char} (h : c ∈ decimal n) :
    c.isDigit = true :=
  Nat.isDigit_of_mem_toDigits (by decide) (by decide) h

theorem decimal_ne_nil (n : Nat) : decimal n ≠ [] := Nat.toDigits_ne_nil

theorem decimal_injective : Function.Injective decimal := by
  intro m n h
  have hread := congrArg (fun digits => Nat.ofDigitChars 10 digits 0) h
  simpa only [decimal, Nat.ofDigitChars_ten_toDigits] using hread

/-- A character that is no digit does not occur in a number. -/
theorem notMem_decimal {c : Char} (h : c.isDigit = false) (n : Nat) : c ∉ decimal n := by
  intro mem
  rw [isDigit_of_mem_decimal mem] at h
  cases h

/-- Reading back a number that is within the bound. -/
theorem parseNat_decimal {bound n : Nat} (h : n < bound) :
    parseNat bound (decimal n) = some n := by
  have hplus : ∀ digits, decimal n = '+' :: digits → False := by
    intro digits heq
    exact notMem_decimal (by decide) n (heq ▸ List.mem_cons_self)
  have hall : (decimal n).all Char.isDigit = true :=
    List.all_eq_true.mpr fun _ mem => isDigit_of_mem_decimal mem
  have hne : (decimal n).isEmpty = false := by
    rw [List.isEmpty_eq_false_iff]
    exact decimal_ne_nil n
  rw [parseNat.eq_2 _ _ hplus, hall, hne]
  show (if Nat.ofDigitChars 10 (decimal n) 0 < bound then
    some (Nat.ofDigitChars 10 (decimal n) 0) else none) = some n
  rw [decimal, Nat.ofDigitChars_ten_toDigits, if_pos h]

/-! ### Sorted without repetition -/

section Sorting

variable {α : Type*} [LinearOrder α]

/-- Sorting forgets the order. -/
theorem insertionSort_eq_of_perm {xs ys : List α} (h : xs.Perm ys) :
    xs.insertionSort (· ≤ ·) = ys.insertionSort (· ≤ ·) := by
  refine List.Perm.eq_of_pairwise' (List.pairwise_insertionSort _ _)
    (List.pairwise_insertionSort _ _) ?_
  exact (List.perm_insertionSort _ xs).trans (h.trans (List.perm_insertionSort _ ys).symm)

/-- Sorting forgets nothing but the order. -/
theorem perm_of_insertionSort_eq {xs ys : List α}
    (h : xs.insertionSort (· ≤ ·) = ys.insertionSort (· ≤ ·)) : xs.Perm ys :=
  (List.perm_insertionSort (· ≤ ·) xs).symm.trans (h ▸ List.perm_insertionSort (· ≤ ·) ys)

/-- `sort` and `dedup`. -/
def sortDedup (xs : List α) : List α := (xs.insertionSort (· ≤ ·)).destutter (· ≠ ·)

theorem sortDedup_pairwise (xs : List α) : (sortDedup xs).Pairwise (· ≤ ·) :=
  (List.pairwise_insertionSort (· ≤ ·) xs).sublist (List.destutter_sublist _ _)

/-- Doing it once is enough. -/
theorem sortDedup_idem (xs : List α) : sortDedup (sortDedup xs) = sortDedup xs := by
  have hsorted := (sortDedup_pairwise xs).insertionSort_eq
  rw [sortDedup, hsorted, sortDedup]
  exact List.destutter_idem ..

theorem mem_sortDedup {xs : List α} {x : α} (h : x ∈ sortDedup xs) : x ∈ xs :=
  (List.mem_insertionSort (· ≤ ·)).mp ((List.destutter_sublist _ _).subset h)

theorem mem_destutter' {a x : α} {xs : List α} (h : x ∈ a :: xs) :
    x ∈ xs.destutter' (· ≠ ·) a := by
  induction xs generalizing a with
  | nil => exact h
  | cons b xs ih =>
      rw [List.destutter'_cons]
      split
      · rcases List.mem_cons.mp h with rfl | h
        · exact List.mem_cons_self
        · exact List.mem_cons_of_mem _ (ih h)
      · rename_i heq
        have hsame : a = b := not_not.mp heq
        refine ih ?_
        rcases List.mem_cons.mp h with rfl | h
        · exact List.mem_cons_self
        · rw [hsame]
          exact h

/-- Nothing is lost but repetitions. -/
theorem mem_sortDedup_of_mem {xs : List α} {x : α} (h : x ∈ xs) : x ∈ sortDedup xs := by
  have hmem := (List.mem_insertionSort (· ≤ ·)).mpr h
  rw [sortDedup]
  cases hsorted : xs.insertionSort (· ≤ ·) with
  | nil =>
      rw [hsorted] at hmem
      cases hmem
  | cons y ys =>
      rw [hsorted] at hmem
      exact mem_destutter' hmem

theorem mem_sortDedup_iff {xs : List α} {x : α} : x ∈ sortDedup xs ↔ x ∈ xs :=
  ⟨mem_sortDedup, mem_sortDedup_of_mem⟩

/-- Sorted elements of which no two neighbours agree are distinct. -/
theorem nodup_of_isChain_ne {xs : List α} (sorted : xs.Pairwise (· ≤ ·))
    (distinct : xs.IsChain (· ≠ ·)) : xs.Nodup := by
  have hlt : xs.IsChain (· < ·) := by
    induction xs with
    | nil => exact .nil
    | cons x xs ih =>
        cases xs with
        | nil => exact .singleton x
        | cons y ys =>
            obtain ⟨hne, hrest⟩ := List.isChain_cons_cons.mp distinct
            have hle := List.rel_of_pairwise_cons sorted List.mem_cons_self
            exact List.isChain_cons_cons.mpr
              ⟨lt_of_le_of_ne hle hne, ih (List.Pairwise.of_cons sorted) hrest⟩
  exact hlt.pairwise.imp ne_of_lt

theorem sortDedup_nodup (xs : List α) : (sortDedup xs).Nodup :=
  nodup_of_isChain_ne (sortDedup_pairwise xs) (List.isChain_destutter _ _)

/-- A list that loses nothing by it has no repetitions. -/
theorem nodup_of_length_sortDedup {xs : List α} (h : (sortDedup xs).length = xs.length) :
    xs.Nodup := by
  have hall : sortDedup xs = xs.insertionSort (· ≤ ·) :=
    (List.destutter_sublist _ _).eq_of_length (by rw [List.length_insertionSort]; exact h)
  rw [← (List.perm_insertionSort (· ≤ ·) xs).nodup_iff, ← hall]
  exact sortDedup_nodup xs

end Sorting

/-! ### UTF-8 -/

/-- The bytes of a text. -/
def encodeUtf8 (text : List Char) : List UInt8 := text.flatMap String.utf8EncodeChar

/-- The text of a byte string, if it is one. -/
def decodeUtf8 (bytes : List UInt8) : Option (List Char) :=
  bytes.toByteArray.utf8Decode?.map Array.toList

@[simp] theorem decodeUtf8_encodeUtf8 (text : List Char) :
    decodeUtf8 (encodeUtf8 text) = some text := by
  have h : (encodeUtf8 text).toByteArray = text.utf8Encode := rfl
  rw [decodeUtf8, h, List.utf8Decode?_utf8Encode]
  rfl

end Lines
