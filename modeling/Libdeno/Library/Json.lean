import Libdeno.Library.Lines
import Libdeno.Library.Scan
import Libdeno.Library.Text

/-!
# Libdeno.Library.Json

**Pulling the members out of a JSON object.** `MapReader` is the interface of a streaming
deserialiser at an object: open it, take the next key, skip the value or take it as an
unsigned number, and see that nothing follows. Its laws are those of the JSON grammar: a
key is over at its closing quote, and a value is over where it ends, so neither depends on
what comes after; only a number goes on until a byte that cannot go on with it, or until
the input ends.

`mapReader` is such a reader, byte by byte, and meets the laws.
-/

namespace Json

open Scan

/-! ### Bytes -/

def byte (c : Char) : UInt8 := UInt8.ofNat c.toNat

def isSpace (b : UInt8) : Bool :=
  b = byte ' ' || b = byte '\t' || b = byte '\n' || b = byte '\r'

def isDigit (b : UInt8) : Bool := byte '0' ≤ b && b ≤ byte '9'

/-- A number goes on with these: a further digit, a fraction or an exponent. -/
def goesOn (b : UInt8) : Bool :=
  isDigit b || b = byte '.' || b = byte 'e' || b = byte 'E'

theorem ne_of_isDigit {b c : UInt8} (h : isDigit b = true) (hc : isDigit c = false) :
    b ≠ c := by
  intro heq
  rw [heq, hc] at h
  cases h

theorem isSpace_eq_false_of_isDigit {b : UInt8} (h : isDigit b = true) :
    isSpace b = false := by
  simp [isSpace, ne_of_isDigit h (show isDigit (byte ' ') = false from rfl),
    ne_of_isDigit h (show isDigit (byte '\t') = false from rfl),
    ne_of_isDigit h (show isDigit (byte '\n') = false from rfl),
    ne_of_isDigit h (show isDigit (byte '\r') = false from rfl)]

theorem toNat_of_isDigit {b : UInt8} (h : isDigit b = true) :
    (byte '0').toNat ≤ b.toNat := by
  rw [isDigit, Bool.and_eq_true] at h
  exact UInt8.le_iff_toNat_le.mp (of_decide_eq_true h.1)

/-! ### Unsigned numbers -/

/-- The number whose digits go on with `digits` after `n`. -/
def valueFrom (n : Nat) (digits : List UInt8) : Nat :=
  digits.foldl (fun n digit => 10 * n + (digit.toNat - (byte '0').toNat)) n

/-- The digits of `n` as JSON writes it. -/
structure Digits (digits : List UInt8) (n : Nat) : Prop where
  nonempty : digits ≠ []
  digit : ∀ b ∈ digits, isDigit b = true
  /-- No zero in front. -/
  leading : ∀ more, digits = byte '0' :: more → more = []
  value : valueFrom 0 digits = n

/-- What follows the digits belongs to the number. -/
def Continued (rest : List UInt8) : Prop :=
  ∃ b more, rest = b :: more ∧ goesOn b = true

/-- What stands between a key and its value. -/
def Separator (sep : List UInt8) : Prop :=
  ∃ before after, sep = before ++ byte ':' :: after ∧ (∀ b ∈ before, isSpace b = true) ∧
    ∀ b ∈ after, isSpace b = true

theorem le_valueFrom (n : Nat) (digits : List UInt8) : n ≤ valueFrom n digits := by
  induction digits generalizing n with
  | nil => exact Nat.le_refl n
  | cons digit digits ih =>
      have := ih (10 * n + (digit.toNat - (byte '0').toNat))
      rw [valueFrom, List.foldl_cons]
      rw [valueFrom] at this
      omega

/-- A further digit makes the number ten times as large. -/
theorem ten_mul_le_valueFrom (n : Nat) (digit : UInt8) (digits : List UInt8) :
    10 * n ≤ valueFrom n (digit :: digits) := by
  have := le_valueFrom (10 * n + (digit.toNat - (byte '0').toNat)) digits
  rw [valueFrom, List.foldl_cons]
  rw [valueFrom] at this
  omega

theorem valueFrom_append (n : Nat) (xs ys : List UInt8) :
    valueFrom n (xs ++ ys) = valueFrom (valueFrom n xs) ys := List.foldl_append

/-- Only `0` is written for zero. -/
theorem Digits.eq_zero {digits : List UInt8} (h : Digits digits 0) :
    digits = [byte '0'] := by
  cases digits with
  | nil => exact absurd rfl h.nonempty
  | cons digit digits =>
      have hdigit := h.digit digit List.mem_cons_self
      have hle := le_valueFrom (digit.toNat - (byte '0').toNat) digits
      have hvalue : valueFrom (10 * 0 + (digit.toNat - (byte '0').toNat)) digits = 0 := h.value
      rw [Nat.mul_zero, Nat.zero_add] at hvalue
      have hzero : digit = byte '0' := by
        have hge := toNat_of_isDigit hdigit
        exact UInt8.toNat_inj.mp (by omega)
      rw [hzero] at h ⊢
      rw [h.leading digits rfl]

/-- More digits, another number. -/
theorem Digits.append_ne {digits more : List UInt8} {digit : UInt8} {n : Nat}
    (h : Digits digits n) : ¬ Digits (digits ++ digit :: more) n := by
  intro h'
  by_cases hzero : n = 0
  · subst hzero
    rw [h.eq_zero] at h'
    exact absurd (h'.leading _ rfl) (List.cons_ne_nil _ _)
  · have hvalue := h'.value
    rw [valueFrom_append, h.value] at hvalue
    have := ten_mul_le_valueFrom n digit more
    omega

/-! ### Where a number ends -/

/-- What is left after the colon and the blanks around it. -/
def afterSeparator (input : List UInt8) : List UInt8 :=
  (input.dropWhile isSpace).tail.dropWhile isSpace

theorem Digits.dropWhile_isSpace {digits : List UInt8} {n : Nat} (h : Digits digits n)
    (rest : List UInt8) : (digits ++ rest).dropWhile isSpace = digits ++ rest := by
  cases digits with
  | nil => exact absurd rfl h.nonempty
  | cons digit digits =>
      have hspace := isSpace_eq_false_of_isDigit (h.digit digit List.mem_cons_self)
      rw [List.cons_append, List.dropWhile_cons_of_neg (by simp [hspace])]

theorem dropWhile_separator {before after : List UInt8}
    (hbefore : ∀ b ∈ before, isSpace b = true) (rest : List UInt8) :
    (before ++ byte ':' :: after ++ rest).dropWhile isSpace = byte ':' :: after ++ rest := by
  rw [List.append_assoc, List.dropWhile_append_of_pos hbefore, List.cons_append,
    List.dropWhile_cons_of_neg (by decide)]

theorem afterSeparator_append {sep digits : List UInt8} {n : Nat} (hsep : Separator sep)
    (h : Digits digits n) (rest : List UInt8) :
    afterSeparator (sep ++ digits ++ rest) = digits ++ rest := by
  obtain ⟨before, after, rfl, hbefore, hafter⟩ := hsep
  rw [List.append_assoc, afterSeparator, dropWhile_separator hbefore, List.cons_append,
    List.tail_cons, List.dropWhile_append_of_pos hafter, h.dropWhile_isSpace]

theorem takeWhile_of_not_continued {rest : List UInt8} (h : ¬ Continued rest) :
    rest.takeWhile isDigit = [] := by
  cases rest with
  | nil => rfl
  | cons b more =>
      rw [List.takeWhile_cons_of_neg]
      intro hb
      exact h ⟨b, more, rfl, by simp [goesOn, hb]⟩

/-- A number that goes on is another one: no reading of it gives the number before. -/
theorem Digits.unique {sep sep' digits digits' rest rest' : List UInt8} {n : Nat}
    (hsep : Separator sep) (hsep' : Separator sep') (h : Digits digits n)
    (h' : Digits digits' n) (heq : sep ++ digits ++ rest = sep' ++ digits' ++ rest')
    (ends : ¬ Continued rest') : ¬ Continued rest := by
  have hrest : digits ++ rest = digits' ++ rest' := by
    rw [← afterSeparator_append hsep h, heq, afterSeparator_append hsep' h']
  have htake := congrArg (List.takeWhile isDigit) hrest
  rw [List.takeWhile_append_of_pos h.digit, List.takeWhile_append_of_pos h'.digit,
    takeWhile_of_not_continued ends, List.append_nil] at htake
  cases hmore : rest.takeWhile isDigit with
  | nil =>
      rw [hmore, List.append_nil] at htake
      rw [htake] at hrest
      rwa [List.append_cancel_left hrest]
  | cons digit more =>
      rw [hmore] at htake
      exact absurd (htake ▸ h') h.append_ne

/-! ### Streaming deserialisers -/

/-- Pull access to one object: how a streaming deserialiser is driven, and what is relied
on. -/
structure MapReader where
  /-- Blanks and the opening brace. -/
  openObject : List UInt8 → Reading UInt8 Unit
  /-- The next key, the first one or a further one; `none` at the closing brace. -/
  nextKey : Bool → List UInt8 → Reading UInt8 (Option (List Char))
  /-- The colon and any value. -/
  skipValue : List UInt8 → Reading UInt8 Unit
  /-- The colon and a value that is an unsigned number of 32 bits. -/
  nextU32 : List UInt8 → Reading UInt8 Nat
  /-- Nothing but blanks is left. -/
  finished : List UInt8 → Bool
  openObject_append : ∀ {input rest} more, openObject input = .ok () rest →
    openObject (input ++ more) = .ok () (rest ++ more)
  nextKey_append : ∀ {first input key rest} more, nextKey first input = .ok key rest →
    nextKey first (input ++ more) = .ok key (rest ++ more)
  nextKey_nil : ∀ first, nextKey first [] = .eof
  nextKey_shorter : ∀ {first input key rest}, nextKey first input = .ok key rest →
    rest.length < input.length
  skipValue_append : ∀ {input rest} more, skipValue input = .ok () rest → rest ≠ [] →
    skipValue (input ++ more) = .ok () (rest ++ more)
  skipValue_shorter : ∀ {input rest}, skipValue input = .ok () rest →
    rest.length ≤ input.length
  nextU32_ok : ∀ {input n rest}, nextU32 input = .ok n rest ↔
    ∃ sep digits, input = sep ++ digits ++ rest ∧ Separator sep ∧ Digits digits n ∧
      n < 2 ^ 32 ∧ ¬ Continued rest
  skipValue_of_nextU32 : ∀ {input n rest}, nextU32 input = .ok n rest →
    skipValue input = .ok () rest

namespace MapReader

variable {reader : MapReader} {input rest : List UInt8} {n : Nat}

/-- A number stays what it is where what follows does not go on with it. -/
theorem nextU32_append (h : reader.nextU32 input = .ok n rest) {more : List UInt8}
    (ends : ¬ Continued (rest ++ more)) :
    reader.nextU32 (input ++ more) = .ok n (rest ++ more) := by
  obtain ⟨sep, digits, rfl, hsep, hdigits, hbound, -⟩ := reader.nextU32_ok.mp h
  exact reader.nextU32_ok.mpr
    ⟨sep, digits, by rw [List.append_assoc], hsep, hdigits, hbound, ends⟩

/-- With something left, what is left decides. -/
theorem nextU32_append_of_left (h : reader.nextU32 input = .ok n rest) (left : rest ≠ [])
    (more : List UInt8) : reader.nextU32 (input ++ more) = .ok n (rest ++ more) := by
  obtain ⟨-, -, -, -, -, -, hends⟩ := reader.nextU32_ok.mp h
  refine nextU32_append h ?_
  intro ⟨b, more', heq, hb⟩
  cases rest with
  | nil => exact left rfl
  | cons c rest =>
      injection heq with hc
      exact hends ⟨c, rest, rfl, hc ▸ hb⟩

/-- Where the number goes on, it is another one or none. -/
theorem nextU32_ne_of_continued (h : reader.nextU32 input = .ok n []) {more : List UInt8}
    (goes : Continued more) (rest : List UInt8) :
    reader.nextU32 (input ++ more) ≠ .ok n rest := by
  intro h'
  obtain ⟨sep, digits, heq, hsep, hdigits, -, -⟩ := reader.nextU32_ok.mp h
  obtain ⟨sep', digits', heq', hsep', hdigits', -, hends⟩ := reader.nextU32_ok.mp h'
  rw [List.append_nil] at heq
  rw [heq] at heq'
  exact hdigits.unique hsep hsep' hdigits' heq' hends goes

theorem nextU32_shorter (h : reader.nextU32 input = .ok n rest) :
    rest.length ≤ input.length :=
  reader.skipValue_shorter (reader.skipValue_of_nextU32 h)

end MapReader

/-! ### Inside quotes -/

def isHex (b : UInt8) : Bool :=
  isDigit b || (byte 'a' ≤ b && b ≤ byte 'f') || (byte 'A' ≤ b && b ≤ byte 'F')

def hexValue (b : UInt8) : Nat :=
  if isDigit b then b.toNat - (byte '0').toNat
  else if byte 'a' ≤ b then b.toNat - (byte 'a').toNat + 10
  else b.toNat - (byte 'A').toNat + 10

/-- The escapes of one letter and what they stand for. -/
def escapes : List (UInt8 × UInt8) :=
  [(byte '"', byte '"'), (byte '\\', byte '\\'), (byte '/', byte '/'), (byte 'b', 8),
   (byte 'f', 12), (byte 'n', byte '\n'), (byte 'r', byte '\r'), (byte 't', byte '\t')]

/-- Where the scan of a string stands; `hex` has so many digits to come after the next. -/
inductive Lex where
  | plain
  | escape
  | hex (left : Nat)

/-- What a byte does to it; `accept` is the closing quote. -/
def Lex.next : Lex → UInt8 → Next Lex Unit
  | .plain, b =>
      if b = byte '"' then .accept ()
      else if b = byte '\\' then .goOn .escape
      else if b < byte ' ' then .reject
      else .goOn .plain
  | .escape, b =>
      if b = byte 'u' then .goOn (.hex 3)
      else if (escapes.lookup b).isSome then .goOn .plain
      else .reject
  | .hex left, b =>
      if isHex b then
        match left with
        | 0 => .goOn .plain
        | left + 1 => .goOn (.hex left)
      else .reject

/-- One unit of a quoted text: a byte that stands for itself or is escaped by a letter, or a
UTF-16 code unit. -/
inductive Piece where
  | byte (b : UInt8)
  | unit (n : Nat)

def pieces : List UInt8 → Option (List Piece)
  | [] => some []
  | b :: rest =>
      if b ≠ byte '\\' then (pieces rest).map (Piece.byte b :: ·)
      else
        match rest with
        | u :: h₃ :: h₂ :: h₁ :: h₀ :: rest' =>
            if u = byte 'u' then
              let n := 4096 * hexValue h₃ + 256 * hexValue h₂ + 16 * hexValue h₁ + hexValue h₀
              (pieces rest').map (Piece.unit n :: ·)
            else
              (escapes.lookup u).bind fun b =>
                (pieces (h₃ :: h₂ :: h₁ :: h₀ :: rest')).map (Piece.byte b :: ·)
        | u :: rest' =>
            (escapes.lookup u).bind fun b => (pieces rest').map (Piece.byte b :: ·)
        | [] => none

/-- The bytes of the pieces; surrogates have to come in pairs. -/
def join : List Piece → Option (List UInt8)
  | [] => some []
  | .byte b :: rest => (join rest).map (b :: ·)
  | .unit n :: rest =>
      if n < 0xd800 ∨ 0xdfff < n then
        (join rest).map (String.utf8EncodeChar (Char.ofNat n) ++ ·)
      else
        match rest with
        | .unit m :: rest' =>
            if n < 0xdc00 ∧ 0xdc00 ≤ m ∧ m < 0xe000 then
              let c := 0x10000 + 0x400 * (n - 0xd800) + (m - 0xdc00)
              (join rest').map (String.utf8EncodeChar (Char.ofNat c) ++ ·)
            else none
        | _ => none

/-- The text between two quotes. -/
def unquote (raw : List UInt8) : Option (List Char) :=
  (pieces raw).bind fun parts => (join parts).bind Lines.decodeUtf8

/-! ### The machines -/

/-- Blanks, then an opening brace. -/
def openMachine : Machine UInt8 Unit Unit where
  next _ b :=
    if isSpace b then .goOn () else if b = byte '{' then .accept () else .reject
  atEnd _ := .short

/-- Where the reading of a key stands. -/
inductive KeyState where
  | start (first : Bool)
  | comma
  /-- What stood between the quotes so far, the last byte first. -/
  | quoted (lex : Lex) (raw : List UInt8)

def KeyState.next : KeyState → UInt8 → Next KeyState (Option (List Char))
  | .start first, b =>
      if isSpace b then .goOn (.start first)
      else if b = byte '}' then .accept none
      else if first then
        if b = byte '"' then .goOn (.quoted .plain []) else .reject
      else if b = byte ',' then .goOn .comma
      else .reject
  | .comma, b =>
      if isSpace b then .goOn .comma
      else if b = byte '"' then .goOn (.quoted .plain [])
      else .reject
  | .quoted lex raw, b =>
      match lex.next b with
      | .goOn lex' => .goOn (.quoted lex' (b :: raw))
      | .accept _ | .stop _ =>
          match unquote raw.reverse with
          | some key => .accept (some key)
          | none => .reject
      | .reject => .reject

def keyMachine : Machine UInt8 KeyState (Option (List Char)) where
  next := KeyState.next
  atEnd _ := .short

/-- Where a number stands. -/
inductive Part where
  | minus
  | zero
  | int
  | dot
  | frac
  | exp
  | expSign
  | expDigits

/-- A number up to here is complete. -/
def Part.complete : Part → Bool
  | .zero | .int | .frac | .expDigits => true
  | .minus | .dot | .exp | .expSign => false

/-- The part of the number after a further byte; `none` where the byte does not go on. -/
def Part.next (part : Part) (b : UInt8) : Option Part :=
  let isExp := b = byte 'e' || b = byte 'E'
  match part with
  | .minus => if b = byte '0' then some .zero else if isDigit b then some .int else none
  | .zero => if b = byte '.' then some .dot else if isExp then some .exp else none
  | .int =>
      if isDigit b then some .int
      else if b = byte '.' then some .dot
      else if isExp then some .exp
      else none
  | .dot => if isDigit b then some .frac else none
  | .frac => if isDigit b then some .frac else if isExp then some .exp else none
  | .exp =>
      if b = byte '+' || b = byte '-' then some .expSign
      else if isDigit b then some .expDigits
      else none
  | .expSign => if isDigit b then some .expDigits else none
  | .expDigits => if isDigit b then some .expDigits else none

/-- What a value is nested in. -/
inductive Container where
  | array
  | object
  deriving DecidableEq

/-- Where the reading of a value stands. -/
inductive Mode where
  | value
  /-- After an opening bracket. -/
  | first
  /-- After an opening brace. -/
  | firstKey
  /-- After a comma in an object. -/
  | key
  | keyText (lex : Lex)
  | colon
  | text (lex : Lex)
  | word (left : List UInt8)
  | number (part : Part)
  /-- After a value inside a container. -/
  | after

structure ValueState where
  mode : Mode
  nested : List Container

/-- A value is over with this byte. -/
def endValue (nested : List Container) : Next ValueState Unit :=
  match nested with
  | [] => .accept ()
  | _ => .goOn ⟨.after, nested⟩

/-- The byte a value starts with. -/
def startValue (nested : List Container) (b : UInt8) : Next ValueState Unit :=
  if b = byte '"' then .goOn ⟨.text .plain, nested⟩
  else if b = byte '[' then .goOn ⟨.first, .array :: nested⟩
  else if b = byte '{' then .goOn ⟨.firstKey, .object :: nested⟩
  else if b = byte 'n' then .goOn ⟨.word (Text.ascii "ull"), nested⟩
  else if b = byte 't' then .goOn ⟨.word (Text.ascii "rue"), nested⟩
  else if b = byte 'f' then .goOn ⟨.word (Text.ascii "alse"), nested⟩
  else if b = byte '-' then .goOn ⟨.number .minus, nested⟩
  else if b = byte '0' then .goOn ⟨.number .zero, nested⟩
  else if isDigit b then .goOn ⟨.number .int, nested⟩
  else .reject

/-- A byte after a value: a comma or the end of the container. -/
def afterValue (nested : List Container) (b : UInt8) : Next ValueState Unit :=
  match nested with
  | [] => .stop ()
  | container :: outer =>
      if isSpace b then .goOn ⟨.after, nested⟩
      else
        match container with
        | .array =>
            if b = byte ']' then endValue outer
            else if b = byte ',' then .goOn ⟨.value, nested⟩
            else .reject
        | .object =>
            if b = byte '}' then endValue outer
            else if b = byte ',' then .goOn ⟨.key, nested⟩
            else .reject

def ValueState.next (state : ValueState) (b : UInt8) : Next ValueState Unit :=
  let nested := state.nested
  match state.mode with
  | .value => if isSpace b then .goOn state else startValue nested b
  | .first =>
      if isSpace b then .goOn state
      else if b = byte ']' then endValue nested.tail
      else startValue nested b
  | .firstKey =>
      if isSpace b then .goOn state
      else if b = byte '}' then endValue nested.tail
      else if b = byte '"' then .goOn ⟨.keyText .plain, nested⟩
      else .reject
  | .key =>
      if isSpace b then .goOn state
      else if b = byte '"' then .goOn ⟨.keyText .plain, nested⟩
      else .reject
  | .keyText lex =>
      match lex.next b with
      | .goOn lex' => .goOn ⟨.keyText lex', nested⟩
      | .accept _ | .stop _ => .goOn ⟨.colon, nested⟩
      | .reject => .reject
  | .colon =>
      if isSpace b then .goOn state
      else if b = byte ':' then .goOn ⟨.value, nested⟩
      else .reject
  | .text lex =>
      match lex.next b with
      | .goOn lex' => .goOn ⟨.text lex', nested⟩
      | .accept _ | .stop _ => endValue nested
      | .reject => .reject
  | .word left =>
      match left with
      | [] => .reject
      | [c] => if b = c then endValue nested else .reject
      | c :: left' => if b = c then .goOn ⟨.word left', nested⟩ else .reject
  | .number part =>
      match part.next b with
      | some part' => .goOn ⟨.number part', nested⟩
      | none =>
          -- no digit may follow a leading zero
          if part.complete && !isDigit b then afterValue nested b else .reject
  | .after => afterValue nested b

def ValueState.atEnd (state : ValueState) : End Unit :=
  match state.mode, state.nested with
  | .number part, [] => if part.complete then .complete () else .wrong
  | .number part, _ => if part.complete then .short else .wrong
  | _, _ => .short

def valueMachine : Machine UInt8 ValueState Unit where
  next := ValueState.next
  atEnd := ValueState.atEnd

/-- The number of some digits, in front of `rest`. -/
def endDigits (digits rest : List UInt8) : Reading UInt8 Nat :=
  if digits = [] ∨ (digits.head? = some (byte '0') ∧ digits.length ≠ 1) ∨
      rest.head?.any goesOn ∨ 2 ^ 32 ≤ valueFrom 0 digits then .bad
  else .ok (valueFrom 0 digits) rest

def readDigits (text : List UInt8) : Reading UInt8 Nat :=
  if text = [] then .eof
  else endDigits (text.takeWhile isDigit) (text.dropWhile isDigit)

/-- An unsigned number of 32 bits as a value. A number that is none ends the reading. -/
def readU32 (input : List UInt8) : Reading UInt8 Nat :=
  match input.dropWhile isSpace with
  | [] => .eof
  | b :: input' =>
      if b = byte ':' then readDigits (input'.dropWhile isSpace) else .bad

/-! ### The reader -/

theorem openMachine_closed : openMachine.Closed := by
  intro state value h
  cases h

theorem keyMachine_closed : keyMachine.Closed := by
  intro state value h
  cases h

theorem keyMachine_eager : keyMachine.Eager := by
  intro state b value h
  show False
  change state.next b = .stop value at h
  cases state with
  | start first =>
      rw [KeyState.next] at h
      split_ifs at h
  | comma =>
      rw [KeyState.next] at h
      split_ifs at h
  | quoted lex raw =>
      rw [KeyState.next] at h
      split at h
      · cases h
      · split at h <;> cases h
      · split at h <;> cases h
      · cases h

theorem endDigits_ok {digits rest rest' : List UInt8} {n : Nat}
    (digit : ∀ b ∈ digits, isDigit b = true) :
    endDigits digits rest = .ok n rest' ↔
      rest = rest' ∧ Digits digits n ∧ n < 2 ^ 32 ∧ ¬ Continued rest := by
  constructor
  · intro h
    rw [endDigits] at h
    split_ifs at h with hbad
    simp only [not_or, not_and, not_not, Bool.not_eq_true, not_le] at hbad
    obtain ⟨hne, hleading, hends, hbound⟩ := hbad
    injection h with hvalue hrest
    refine ⟨hrest, ⟨hne, digit, ?_, hvalue⟩, hvalue ▸ hbound, ?_⟩
    · intro more heq
      have hone := hleading (by rw [heq]; rfl)
      rw [heq, List.length_cons] at hone
      exact List.length_eq_zero_iff.mp (by omega)
    · intro ⟨b, more, heq, hb⟩
      rw [heq, List.head?_cons, Option.any_some, hb] at hends
      cases hends
  · rintro ⟨rfl, hdigits, hbound, hends⟩
    have hvalue := hdigits.value
    rw [endDigits, if_neg, hvalue]
    simp only [not_or, not_and, not_not, Bool.not_eq_true, not_le]
    refine ⟨hdigits.nonempty, ?_, ?_, hvalue ▸ hbound⟩
    · intro hzero
      cases digits with
      | nil => cases hzero
      | cons digit more =>
          injection hzero with hzero
          rw [hdigits.leading more (by rw [hzero])]
          rfl
    · cases rest with
      | nil => rfl
      | cons b more =>
          rw [List.head?_cons, Option.any_some, ← Bool.not_eq_true]
          intro hb
          exact hends ⟨b, more, rfl, hb⟩

theorem readU32_ok {input rest : List UInt8} {n : Nat} :
    readU32 input = .ok n rest ↔
      ∃ sep digits, input = sep ++ digits ++ rest ∧ Separator sep ∧ Digits digits n ∧
        n < 2 ^ 32 ∧ ¬ Continued rest := by
  constructor
  · intro h
    have hinput := (List.takeWhile_append_dropWhile (p := isSpace) (l := input)).symm
    rw [readU32] at h
    split at h
    · cases h
    · rename_i b input' hdrop
      rw [hdrop] at hinput
      split_ifs at h with hcolon
      rw [readDigits] at h
      split_ifs at h
      obtain ⟨hrest, hdigits, hbound, hends⟩ :=
        (endDigits_ok fun b mem => List.mem_takeWhile_imp mem).mp h
      have htext := (List.takeWhile_append_dropWhile (p := isSpace) (l := input')).symm
      have hsplit := (List.takeWhile_append_dropWhile (p := isDigit)
        (l := input'.dropWhile isSpace)).symm
      refine ⟨input.takeWhile isSpace ++ byte ':' :: input'.takeWhile isSpace,
        (input'.dropWhile isSpace).takeWhile isDigit, ?_, ?_, hdigits, hbound, hrest ▸ hends⟩
      · rw [← hrest, List.append_assoc, List.append_assoc, ← hsplit, List.cons_append,
          ← htext, ← hcolon]
        exact hinput
      · exact ⟨_, _, rfl, fun b mem => List.mem_takeWhile_imp mem,
          fun b mem => List.mem_takeWhile_imp mem⟩
  · rintro ⟨sep, digits, rfl, ⟨before, after, rfl, hbefore, hafter⟩, hdigits, hbound, hends⟩
    have htake : (digits ++ rest).takeWhile isDigit = digits := by
      rw [List.takeWhile_append_of_pos hdigits.digit, takeWhile_of_not_continued hends,
        List.append_nil]
    have hdrop : (digits ++ rest).dropWhile isDigit = rest := by
      have hsplit := List.takeWhile_append_dropWhile (p := isDigit) (l := digits ++ rest)
      rw [htake] at hsplit
      exact List.append_cancel_left hsplit
    have hne : digits ++ rest ≠ [] := fun h =>
      hdigits.nonempty (List.append_eq_nil_iff.mp h).1
    have htext : readDigits (digits ++ rest) = .ok n rest := by
      rw [readDigits, if_neg hne, htake, hdrop]
      exact (endDigits_ok hdigits.digit).mpr ⟨rfl, hdigits, hbound, hends⟩
    rw [readU32, List.append_assoc, dropWhile_separator hbefore]
    show (if byte ':' = byte ':' then
      readDigits ((after ++ (digits ++ rest)).dropWhile isSpace) else .bad) = _
    rw [if_pos rfl, List.dropWhile_append_of_pos hafter, hdigits.dropWhile_isSpace, htext]

theorem Part.next_eq_none {part : Part} {b : UInt8} (hpart : part.complete = true)
    (h : goesOn b = false) : part.next b = none := by
  simp only [goesOn, Bool.or_eq_false_iff, decide_eq_false_iff_not] at h
  cases part <;> simp_all [Part.complete, Part.next]

/-- A complete number that is nested in nothing is over where nothing goes on with it. -/
theorem run_number {part : Part} (hpart : part.complete = true) {rest : List UInt8}
    (ends : ¬ Continued rest) :
    valueMachine.run ⟨.number part, []⟩ rest = .ok () rest := by
  cases rest with
  | nil =>
      have hend : valueMachine.atEnd ⟨.number part, []⟩ = .complete () := by
        show (if part.complete = true then End.complete () else .wrong) = _
        rw [if_pos hpart]
      rw [Machine.run, hend]
  | cons b more =>
      have hb : goesOn b = false := by
        rw [← Bool.not_eq_true]
        intro hb
        exact ends ⟨b, more, rfl, hb⟩
      have hdigit : isDigit b = false := by
        rw [goesOn] at hb
        simp only [Bool.or_eq_false_iff] at hb
        exact hb.1.1.1
      refine Machine.run_stop ?_ more
      show (match part.next b with
        | some part' => Next.goOn (ValueState.mk (.number part') [])
        | none => if part.complete && !isDigit b then afterValue [] b else .reject) = _
      rw [Part.next_eq_none hpart hb, hpart, hdigit]
      rfl

/-- The digits of a number are a value. -/
theorem run_digits {digits rest : List UInt8} {n : Nat} (h : Digits digits n)
    (ends : ¬ Continued rest) :
    valueMachine.run ⟨.value, []⟩ (digits ++ rest) = .ok () rest := by
  cases digits with
  | nil => exact absurd rfl h.nonempty
  | cons digit more =>
      have hdigit := h.digit digit List.mem_cons_self
      have hne : ∀ {c : UInt8}, isDigit c = false → digit ≠ c := fun hc =>
        ne_of_isDigit hdigit hc
      have hnext : valueMachine.next ⟨.value, []⟩ digit = startValue [] digit := by
        show (if isSpace digit = true then _ else _) = _
        rw [if_neg (by simp [isSpace_eq_false_of_isDigit hdigit])]
      have hstart : startValue [] digit =
          if digit = byte '0' then .goOn ⟨.number .zero, []⟩
          else .goOn ⟨.number .int, []⟩ := by
        rw [startValue, if_neg (hne rfl), if_neg (hne rfl), if_neg (hne rfl),
          if_neg (hne rfl), if_neg (hne rfl), if_neg (hne rfl), if_neg (hne rfl),
          if_pos hdigit]
      rw [hstart] at hnext
      by_cases hzero : digit = byte '0'
      · rw [if_pos hzero] at hnext
        rw [List.cons_append, Machine.run_goOn hnext, h.leading more (by rw [hzero])]
        exact run_number rfl ends
      · rw [if_neg hzero] at hnext
        rw [List.cons_append, Machine.run_goOn hnext, Machine.run_loop]
        · exact run_number rfl ends
        · intro b mem
          show (match Part.next .int b with
            | some part' => Next.goOn (ValueState.mk (.number part') [])
            | none => _) = _
          rw [Part.next, if_pos (h.digit b (List.mem_cons_of_mem _ mem))]

theorem run_separator {sep : List UInt8} (h : Separator sep) (rest : List UInt8) :
    valueMachine.run ⟨.colon, []⟩ (sep ++ rest) = valueMachine.run ⟨.value, []⟩ rest := by
  obtain ⟨before, after, rfl, hbefore, hafter⟩ := h
  have hcolon : valueMachine.next ⟨.colon, []⟩ (byte ':') = .goOn ⟨.value, []⟩ := rfl
  rw [List.append_assoc, Machine.run_loop, List.cons_append, Machine.run_goOn hcolon,
    Machine.run_loop]
  · intro b mem
    show (if isSpace b = true then _ else _) = _
    rw [if_pos (hafter b mem)]
  · intro b mem
    show (if isSpace b = true then _ else _) = _
    rw [if_pos (hbefore b mem)]

/-- The reader of the machines. -/
def mapReader : MapReader where
  openObject := openMachine.run ()
  nextKey first := keyMachine.run (.start first)
  skipValue := valueMachine.run ⟨.colon, []⟩
  nextU32 := readU32
  finished input := input.all isSpace
  openObject_append more h := Machine.run_append_of_closed openMachine_closed h more
  nextKey_append more h := Machine.run_append_of_closed keyMachine_closed h more
  nextKey_nil _ := rfl
  nextKey_shorter h := Machine.length_run_lt keyMachine_closed keyMachine_eager h
  skipValue_append more h left := Machine.run_append h left more
  skipValue_shorter h := Machine.length_run_le h
  nextU32_ok := readU32_ok
  skipValue_of_nextU32 h := by
    obtain ⟨sep, digits, rfl, hsep, hdigits, -, hends⟩ := readU32_ok.mp h
    rw [List.append_assoc, run_separator hsep]
    exact run_digits hdigits hends

/-! ### Texts without escapes -/

/-- A byte that stands for itself between quotes. -/
def isPlain (b : UInt8) : Bool := b ≠ byte '"' && b ≠ byte '\\' && !(b < byte ' ')

theorem Lex.next_plain {b : UInt8} (h : isPlain b = true) :
    Lex.plain.next b = .goOn .plain := by
  simp only [isPlain, Bool.and_eq_true, decide_eq_true_eq, Bool.not_eq_true',
    decide_eq_false_iff_not] at h
  rw [Lex.next, if_neg h.1.1, if_neg h.1.2, if_neg h.2]

theorem unquote_plain {raw : List UInt8} (h : ∀ b ∈ raw, isPlain b = true) :
    unquote raw = Lines.decodeUtf8 raw := by
  have hpieces : pieces raw = some (raw.map Piece.byte) := by
    induction raw with
    | nil => rfl
    | cons b raw ih =>
        have hb := h b List.mem_cons_self
        simp only [isPlain, Bool.and_eq_true, decide_eq_true_eq] at hb
        rw [pieces.eq_def]
        show (if b ≠ byte '\\' then (pieces raw).map (Piece.byte b :: ·) else _) = _
        rw [if_pos hb.1.2, ih fun b mem => h b (List.mem_cons_of_mem _ mem)]
        rfl
  have hjoin : ∀ raw : List UInt8, join (raw.map Piece.byte) = some raw := by
    intro raw
    induction raw with
    | nil => rfl
    | cons b raw ih =>
        rw [List.map_cons, join, ih]
        rfl
  rw [unquote, hpieces, Option.bind_some, hjoin, Option.bind_some]

/-- The rest of a key without escapes. -/
theorem run_quoted {raw seen : List UInt8} (h : ∀ b ∈ raw, isPlain b = true)
    {key : List Char} (hkey : unquote (seen.reverse ++ raw) = some key) (rest : List UInt8) :
    keyMachine.run (.quoted .plain seen) (raw ++ byte '"' :: rest) = .ok (some key) rest := by
  induction raw generalizing seen with
  | nil =>
      rw [List.append_nil] at hkey
      refine Machine.run_accept ?_ rest
      show (match unquote seen.reverse with
        | some key => Next.accept (some key)
        | none => .reject) = Next.accept (some key)
      rw [hkey]
  | cons b raw ih =>
      have hnext : keyMachine.next (.quoted .plain seen) b =
          .goOn (.quoted .plain (b :: seen)) := by
        show (match Lex.plain.next b with
          | .goOn lex' => Next.goOn (KeyState.quoted lex' (b :: seen))
          | .accept _ | .stop _ => _
          | .reject => .reject) = _
        rw [Lex.next_plain (h b List.mem_cons_self)]
      rw [List.cons_append, Machine.run_goOn hnext]
      refine ih (fun b mem => h b (List.mem_cons_of_mem _ mem)) ?_
      rw [List.reverse_cons, List.append_assoc]
      exact hkey

/-- What is written for a key without escapes, with the comma in front of a further one. -/
def keyText (first : Bool) (key : List Char) : List UInt8 :=
  (if first then [] else [byte ',']) ++ byte '"' :: Lines.encodeUtf8 key ++ [byte '"']

/-- A key without escapes is read back. -/
theorem nextKey_keyText {key : List Char}
    (h : ∀ b ∈ Lines.encodeUtf8 key, isPlain b = true) (first : Bool) (rest : List UInt8) :
    mapReader.nextKey first (keyText first key ++ rest) = .ok (some key) rest := by
  have hkey : unquote (Lines.encodeUtf8 key) = some key := by
    rw [unquote_plain h, Lines.decodeUtf8_encodeUtf8]
  have hquoted : keyMachine.run (.quoted .plain [])
      (Lines.encodeUtf8 key ++ byte '"' :: rest) = .ok (some key) rest := by
    refine run_quoted h ?_ rest
    rw [List.reverse_nil, List.nil_append]
    exact hkey
  cases first with
  | true =>
      have hnext : keyMachine.next (.start true) (byte '"') = .goOn (.quoted .plain []) := rfl
      show keyMachine.run (.start true)
        (byte '"' :: Lines.encodeUtf8 key ++ [byte '"'] ++ rest) = _
      rw [List.append_assoc, List.cons_append, Machine.run_goOn hnext]
      exact hquoted
  | false =>
      have hcomma : keyMachine.next (.start false) (byte ',') = .goOn .comma := rfl
      have hnext : keyMachine.next .comma (byte '"') = .goOn (.quoted .plain []) := rfl
      show keyMachine.run (.start false)
        (byte ',' :: byte '"' :: Lines.encodeUtf8 key ++ [byte '"'] ++ rest) = _
      rw [List.append_assoc, List.cons_append, Machine.run_goOn hcomma, List.cons_append,
        Machine.run_goOn hnext]
      exact hquoted

/-- A string without escapes is skipped. -/
theorem skipValue_text {raw : List UInt8} (h : ∀ b ∈ raw, isPlain b = true)
    (rest : List UInt8) :
    mapReader.skipValue (byte ':' :: byte '"' :: (raw ++ byte '"' :: rest)) =
      .ok () rest := by
  have hcolon : valueMachine.next ⟨.colon, []⟩ (byte ':') = .goOn ⟨.value, []⟩ := rfl
  have hquote : valueMachine.next ⟨.value, []⟩ (byte '"') = .goOn ⟨.text .plain, []⟩ := rfl
  have hclose : valueMachine.next ⟨.text .plain, []⟩ (byte '"') = .accept () := rfl
  show valueMachine.run ⟨.colon, []⟩ _ = _
  rw [Machine.run_goOn hcolon, Machine.run_goOn hquote, Machine.run_loop,
    Machine.run_accept hclose]
  intro b mem
  show (match Lex.plain.next b with
    | .goOn lex' => Next.goOn (ValueState.mk (.text lex') [])
    | .accept _ | .stop _ => endValue []
    | .reject => .reject) = _
  rw [Lex.next_plain (h b mem)]

end Json
