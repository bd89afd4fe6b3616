import Libdeno.Library.JsonValue
import Libdeno.Library.Lines

/-!
# Libdeno.Library.JsonText

**JSON values as compact text.** No blanks, members in the order the value has them, and in
strings only what must be escaped is. The text can be read back in one way only: what a value
is written as is not the beginning of what another one is, unless a number goes on, and a
number is over where none of its characters follows (`readable`).

How numbers are written is a parameter (`NumberText`). Nothing here mentions a particular
program.
-/

namespace JsonText

open Lines (encodeUtf8 decodeUtf8)

/-! ### Numbers -/

/-- The characters of numbers. -/
def isNumeric (c : Char) : Bool :=
  c.isDigit || c = '-' || c = '+' || c = '.' || c = 'e' || c = 'E'

/-- How numbers are written. -/
structure NumberText (ν : Type*) where
  text : ν → List Char
  nonempty : ∀ n, text n ≠ []
  numeric : ∀ n, ∀ c ∈ text n, isNumeric c = true
  injective : Function.Injective text

/-- What follows is not part of a number. -/
def Ends (rest : List Char) : Prop := ∀ c more, rest = c :: more → isNumeric c = false

theorem ends_nil : Ends [] := by
  intro c more h
  cases h

theorem ends_cons {c : Char} (h : isNumeric c = false) (rest : List Char) : Ends (c :: rest) := by
  intro c' more heq
  obtain ⟨rfl, -⟩ := List.cons_eq_cons.mp heq
  exact h

theorem Ends.takeWhile {rest : List Char} (h : Ends rest) : rest.takeWhile isNumeric = [] := by
  cases rest with
  | nil => rfl
  | cons c more => rw [List.takeWhile_cons_of_neg (by simp [h c more rfl])]

/-- A number that is followed by something else can be told from what follows. -/
theorem NumberText.unique {ν : Type*} (numbers : NumberText ν) {m n : ν} {r s : List Char}
    (hr : Ends r) (hs : Ends s) (h : numbers.text m ++ r = numbers.text n ++ s) :
    m = n ∧ r = s := by
  have htake := congrArg (List.takeWhile isNumeric) h
  rw [List.takeWhile_append_of_pos (numbers.numeric m), hr.takeWhile, List.append_nil,
    List.takeWhile_append_of_pos (numbers.numeric n), hs.takeWhile, List.append_nil] at htake
  rw [htake, List.append_cancel_left_eq] at h
  exact ⟨numbers.injective htake, h⟩

/-! ### Strings -/

/-- The characters that are escaped with one letter. -/
def letters : List (Char × Char) :=
  [('"', '"'), ('\\', '\\'), (Char.ofNat 8, 'b'), ('\t', 't'), ('\n', 'n'), (Char.ofNat 12, 'f'),
    ('\r', 'r')]

/-- A character of a string. -/
def escape (c : Char) : List Char :=
  match letters.lookup c with
  | some letter => ['\\', letter]
  | none =>
      if c.toNat < 32 then
        ['\\', 'u', '0', '0', Nat.digitChar (c.toNat / 16), Nat.digitChar (c.toNat % 16)]
      else [c]

def quoted (text : List Char) : List Char := '"' :: text.flatMap escape ++ ['"']

def hexValue (c : Char) : Nat := if c.isDigit then c.toNat - '0'.toNat else c.toNat - 'a'.toNat + 10

/-- Read one character of a string. -/
def unescape : List Char → Option (Char × List Char)
  | '\\' :: 'u' :: _ :: _ :: high :: low :: rest =>
      some (Char.ofNat (16 * hexValue high + hexValue low), rest)
  | '\\' :: letter :: rest =>
      (letters.find? fun entry => entry.2 = letter).map fun entry => (entry.1, rest)
  | c :: rest => some (c, rest)
  | [] => none

theorem unescape_letter {c letter : Char} (h : letters.lookup c = some letter)
    (rest : List Char) : unescape ('\\' :: letter :: rest) = some (c, rest) := by
  obtain ⟨before, after, hletters, -⟩ := List.lookup_eq_some_iff.mp h
  have hmem : (c, letter) ∈ letters := by
    rw [hletters]
    exact List.mem_append_right _ List.mem_cons_self
  have hall : ∀ entry ∈ letters, unescape ('\\' :: entry.2 :: rest) = some (entry.1, rest) := by
    simp [letters, unescape]
  exact hall _ hmem

theorem hexValue_digitChar {n : Nat} (h : n < 32) :
    Char.ofNat (16 * hexValue (Nat.digitChar (n / 16)) + hexValue (Nat.digitChar (n % 16))) =
      Char.ofNat n := by
  have hall : ∀ n < 32, Char.ofNat
      (16 * hexValue (Nat.digitChar (n / 16)) + hexValue (Nat.digitChar (n % 16))) =
        Char.ofNat n := by
    decide
  exact hall n h

/-- What was escaped is read back, whatever follows. -/
theorem unescape_escape (c : Char) (rest : List Char) :
    unescape (escape c ++ rest) = some (c, rest) := by
  rw [escape]
  cases hletter : letters.lookup c with
  | some letter => exact unescape_letter hletter rest
  | none =>
      dsimp only
      split_ifs with hcontrol
      · have hvalue := hexValue_digitChar hcontrol
        rw [Char.ofNat_toNat] at hvalue
        exact congrArg (fun c => some (c, rest)) hvalue
      -- A character that stands for itself: not the one that begins an escape.
      · have hne : c ≠ '\\' := by
          rintro rfl
          cases hletter
        rw [List.singleton_append, unescape]
        · intro high low h1 h2 more heq
          exact absurd heq hne
        · intro letter more heq
          exact absurd heq hne

/-- An escaped character does not begin like the end of a string. -/
theorem escape_head (c : Char) : ∃ head more, escape c = head :: more ∧ head ≠ '"' := by
  rw [escape]
  cases hletter : letters.lookup c with
  | some letter => exact ⟨'\\', [letter], rfl, by decide⟩
  | none =>
      dsimp only
      split_ifs with hcontrol
      · exact ⟨'\\', _, rfl, by decide⟩
      · refine ⟨c, [], rfl, ?_⟩
        rintro rfl
        cases hletter

/-- A string is over at its closing quote. -/
theorem body_unique {s t r r' : List Char}
    (h : s.flatMap escape ++ '"' :: r = t.flatMap escape ++ '"' :: r') : s = t ∧ r = r' := by
  -- A string that is over, and one that goes on.
  have hends : ∀ {c : Char} {t r r' : List Char},
      '"' :: r ≠ (c :: t).flatMap escape ++ r' := by
    intro c t r r' heq
    obtain ⟨head, more, hescape, hne⟩ := escape_head c
    rw [List.flatMap_cons, hescape, List.append_assoc, List.cons_append] at heq
    exact hne (List.cons_eq_cons.mp heq).1.symm
  induction s generalizing t with
  | nil =>
      cases t with
      | nil => exact ⟨rfl, (List.cons_eq_cons.mp h).2⟩
      | cons c t => exact absurd h hends
  | cons c s ih =>
      cases t with
      | nil => exact absurd h.symm hends
      | cons d t =>
          rw [List.flatMap_cons, List.flatMap_cons, List.append_assoc, List.append_assoc] at h
          have hread := congrArg unescape h
          rw [unescape_escape, unescape_escape, Option.some.injEq, Prod.mk.injEq] at hread
          obtain ⟨rfl, hrest⟩ := hread
          obtain ⟨rfl, hr⟩ := ih hrest
          exact ⟨rfl, hr⟩

theorem quoted_unique {s t r r' : List Char} (h : quoted s ++ r = quoted t ++ r') :
    s = t ∧ r = r' := by
  simp only [quoted, List.cons_append, List.append_assoc, List.nil_append] at h
  exact body_unique (List.cons_eq_cons.mp h).2

/-! ### Values -/

variable {ν : Type} (numbers : NumberText ν)

/-- What stands in front of an element or a member. -/
def separator (first : Bool) : List Char := if first then [] else [',']

mutual

def text : JsonValue ν → List Char
  | .null => ['n', 'u', 'l', 'l']
  | .bool true => ['t', 'r', 'u', 'e']
  | .bool false => ['f', 'a', 'l', 's', 'e']
  | .number value => numbers.text value
  | .string value => quoted value
  | .array values => '[' :: elements true values
  | .object values => '{' :: members true values
termination_by structural v => v

/-- The elements of an array, and its end. -/
def elements (first : Bool) : List (JsonValue ν) → List Char
  | [] => [']']
  | value :: values => separator first ++ text value ++ elements false values
termination_by structural vs => vs

/-- The members of an object, and its end. -/
def members (first : Bool) : List (List Char × JsonValue ν) → List Char
  | [] => ['}']
  | (key, value) :: values =>
      separator first ++ quoted key ++ ':' :: text value ++ members false values
termination_by structural ms => ms

end

/-- The text in UTF-8. -/
def bytes (v : JsonValue ν) : List UInt8 := encodeUtf8 (text numbers v)

/-- What a value is, as its first character says. -/
inductive Opening
  | null
  | bool (value : Bool)
  | number
  | string
  | array
  | object

def opening : JsonValue ν → Opening
  | .null => .null
  | .bool value => .bool value
  | .number _ => .number
  | .string _ => .string
  | .array _ => .array
  | .object _ => .object

def openingOf (c : Char) : Option Opening :=
  if isNumeric c then some .number
  else if c = 'n' then some .null
  else if c = 't' then some (.bool true)
  else if c = 'f' then some (.bool false)
  else if c = '"' then some .string
  else if c = '[' then some .array
  else if c = '{' then some .object
  else none

theorem text_opening (v : JsonValue ν) :
    ∃ c more, text numbers v = c :: more ∧ openingOf c = some (opening v) := by
  cases v with
  | null => exact ⟨'n', _, rfl, rfl⟩
  | bool value =>
      cases value with
      | true => exact ⟨'t', _, rfl, rfl⟩
      | false => exact ⟨'f', _, rfl, rfl⟩
  | number value =>
      cases htext : numbers.text value with
      | nil => exact absurd htext (numbers.nonempty value)
      | cons c more =>
          have hnumeric := numbers.numeric value c (by rw [htext]; exact List.mem_cons_self)
          exact ⟨c, more, htext, by rw [openingOf, if_pos hnumeric]; rfl⟩
  | string value => exact ⟨'"', _, rfl, rfl⟩
  | array values => exact ⟨'[', _, rfl, rfl⟩
  | object values => exact ⟨'{', _, rfl, rfl⟩

variable {numbers}

/-- Texts that begin alike are of the same kind. -/
theorem opening_eq {v w : JsonValue ν} {r s : List Char}
    (h : text numbers v ++ r = text numbers w ++ s) : opening v = opening w := by
  obtain ⟨c, more, hv, hopening⟩ := text_opening numbers v
  obtain ⟨c', more', hw, hopening'⟩ := text_opening numbers w
  rw [hv, hw] at h
  obtain ⟨rfl, -⟩ := List.cons_eq_cons.mp h
  exact Option.some.inj (hopening.symm.trans hopening')

/-- No value begins with a character that opens none. -/
theorem text_ne {v : JsonValue ν} {c : Char} (h : openingOf c = none) {r s : List Char} :
    text numbers v ++ r ≠ c :: s := by
  intro heq
  obtain ⟨c', more, hv, hopening⟩ := text_opening numbers v
  rw [hv] at heq
  obtain ⟨rfl, -⟩ := List.cons_eq_cons.mp heq
  rw [h] at hopening
  cases hopening

variable (numbers) in
/-- What the value is written as can be told from what follows. -/
def Readable (v : JsonValue ν) : Prop :=
  ∀ (w : JsonValue ν) (r s : List Char), Ends r → Ends s →
    text numbers v ++ r = text numbers w ++ s → v = w ∧ r = s

theorem ends_elements (vs : List (JsonValue ν)) (r : List Char) :
    Ends (elements numbers false vs ++ r) := by
  cases vs with
  | nil => exact ends_cons rfl _
  | cons v vs => exact ends_cons rfl _

theorem ends_members (ms : List (List Char × JsonValue ν)) (r : List Char) :
    Ends (members numbers false ms ++ r) := by
  cases ms with
  | nil => exact ends_cons rfl _
  | cons m ms => exact ends_cons rfl _

/-- The end of an array, and an array that goes on. -/
theorem elements_ne {v : JsonValue ν} {vs : List (JsonValue ν)} {first : Bool} {r s : List Char} :
    elements numbers first (v :: vs) ++ r ≠ ']' :: s := by
  intro h
  cases first with
  | true =>
      rw [elements, separator, if_pos rfl, List.nil_append, List.append_assoc] at h
      exact text_ne rfl h
  | false => cases (List.cons_eq_cons.mp h).1

theorem elements_unique {vs ws : List (JsonValue ν)} (readable : ∀ v ∈ vs, Readable numbers v)
    {first : Bool} {r s : List Char}
    (h : elements numbers first vs ++ r = elements numbers first ws ++ s) : vs = ws ∧ r = s := by
  induction vs generalizing ws first with
  | nil =>
      cases ws with
      | nil => exact ⟨rfl, (List.cons_eq_cons.mp h).2⟩
      | cons w ws => exact absurd h.symm elements_ne
  | cons v vs ih =>
      cases ws with
      | nil => exact absurd h elements_ne
      | cons w ws =>
          obtain ⟨hv, hvs⟩ := List.forall_mem_cons.mp readable
          rw [elements, elements, List.append_assoc, List.append_assoc, List.append_assoc,
            List.append_assoc, List.append_cancel_left_eq] at h
          obtain ⟨rfl, hrest⟩ := hv w _ _ (ends_elements vs r) (ends_elements ws s) h
          obtain ⟨rfl, hr⟩ := ih hvs hrest
          exact ⟨rfl, hr⟩

/-- The end of an object, and an object that goes on. -/
theorem members_ne {m : List Char × JsonValue ν} {ms : List (List Char × JsonValue ν)}
    {first : Bool} {r s : List Char} : members numbers first (m :: ms) ++ r ≠ '}' :: s := by
  intro h
  cases first <;> cases (List.cons_eq_cons.mp h).1

theorem members_unique {ms ns : List (List Char × JsonValue ν)}
    (readable : ∀ m ∈ ms, Readable numbers m.2) {first : Bool} {r s : List Char}
    (h : members numbers first ms ++ r = members numbers first ns ++ s) : ms = ns ∧ r = s := by
  induction ms generalizing ns first with
  | nil =>
      cases ns with
      | nil => exact ⟨rfl, (List.cons_eq_cons.mp h).2⟩
      | cons n ns => exact absurd h.symm members_ne
  | cons m ms ih =>
      cases ns with
      | nil => exact absurd h members_ne
      | cons n ns =>
          obtain ⟨hm, hms⟩ := List.forall_mem_cons.mp readable
          obtain ⟨key, v⟩ := m
          obtain ⟨key', w⟩ := n
          simp only [members, List.append_assoc, List.cons_append,
            List.append_cancel_left_eq] at h
          obtain ⟨rfl, hvalue⟩ := quoted_unique h
          obtain ⟨rfl, hrest⟩ :=
            hm w _ _ (ends_members ms r) (ends_members ns s) (List.cons_eq_cons.mp hvalue).2
          obtain ⟨rfl, hr⟩ := ih hms hrest
          exact ⟨rfl, hr⟩

/-- Every text can be read back in one way only. -/
theorem readable (v : JsonValue ν) : Readable numbers v := by
  -- The first character says which constructor the other value has.
  induction v with
  | null =>
      intro w r s _ _ h
      have hopening := opening_eq h
      cases w <;> simp only [opening, reduceCtorEq] at hopening
      exact ⟨rfl, List.append_cancel_left h⟩
  | bool value =>
      intro w r s _ _ h
      have hopening := opening_eq h
      cases w <;> simp only [opening, reduceCtorEq, Opening.bool.injEq] at hopening
      subst hopening
      exact ⟨rfl, List.append_cancel_left h⟩
  | number value =>
      intro w r s hr hs h
      have hopening := opening_eq h
      cases w <;> simp only [opening, reduceCtorEq] at hopening
      obtain ⟨rfl, hrest⟩ := numbers.unique hr hs h
      exact ⟨rfl, hrest⟩
  | string value =>
      intro w r s _ _ h
      have hopening := opening_eq h
      cases w <;> simp only [opening, reduceCtorEq] at hopening
      obtain ⟨rfl, hrest⟩ := quoted_unique h
      exact ⟨rfl, hrest⟩
  | array values ih =>
      intro w r s _ _ h
      have hopening := opening_eq h
      cases w <;> simp only [opening, reduceCtorEq] at hopening
      obtain ⟨rfl, hrest⟩ := elements_unique ih (List.cons_eq_cons.mp h).2
      exact ⟨rfl, hrest⟩
  | object values ih =>
      intro w r s _ _ h
      have hopening := opening_eq h
      cases w <;> simp only [opening, reduceCtorEq] at hopening
      obtain ⟨rfl, hrest⟩ := members_unique ih (List.cons_eq_cons.mp h).2
      exact ⟨rfl, hrest⟩

/-- Values with one text are one value. -/
theorem text_injective : Function.Injective (text numbers) := by
  intro v w h
  have happend : text numbers v ++ [] = text numbers w ++ [] := by rw [h]
  exact (readable v w [] [] ends_nil ends_nil happend).1

theorem bytes_injective : Function.Injective (bytes numbers) := by
  intro v w h
  have hdecoded := congrArg decodeUtf8 h
  rw [bytes, bytes, Lines.decodeUtf8_encodeUtf8, Lines.decodeUtf8_encodeUtf8] at hdecoded
  exact text_injective (Option.some.inj hdecoded)

end JsonText
