import Libdeno.Library.Text
import Libdeno.Supervisor.Payload

/-!
# Libdeno.Supervisor.Json

The JSON texts of the two payload types that cross the channels, as the derived
serialisers write them, with a reader for these texts. Both pairs are faithful in
the sense of `SerdeJson.Faithful`: the assumption the drivers' theorems make about
the serialiser is met by the format itself.

The reader takes the canonical text only (the derived one also takes other field
orders and blanks), and no captured output, which version 2 of the protocol forbids.
-/

namespace Libdeno.Supervisor

open Text

/-! ### Cancel reasons -/

/-- `CancellationReason` is an enumeration in snake case. -/
def reasonTexts : List (List UInt8 × CancelReason) :=
  [(ascii "\"user\"", .user), (ascii "\"deadline\"", .deadline),
   (ascii "\"shutdown\"", .shutdown)]

def reasonText : CancelReason → List UInt8
  | .user => ascii "\"user\""
  | .deadline => ascii "\"deadline\""
  | .shutdown => ascii "\"shutdown\""

/-- The serialiser at `CancelReason`. -/
def jsonReasons : SerdeJson CancelReason where
  toVec reason := .ok (reasonText reason)
  fromSlice payload :=
    match choose reasonTexts payload with
    | some (reason, []) => .ok reason
    | _ => .error "invalid cancel reason"

theorem reasonText_mem (reason : CancelReason) :
    (reasonText reason, reason) ∈ reasonTexts := by
  cases reason <;> simp [reasonText, reasonTexts]

theorem jsonReasons_faithful : jsonReasons.Faithful fun _ => True where
  serializes reason _ := by
    refine ⟨_, rfl, ?_⟩
    cases reason <;> decide
  round_trip reason payload _ h := by
    obtain rfl := Except.ok.inj h
    have hfree : PrefixFree reasonTexts := by unfold PrefixFree; decide
    have hread := choose_append hfree (reasonText_mem reason) []
    rw [List.append_nil] at hread
    simp only [jsonReasons, hread]

/-! ### Terminals -/

def outcomeTexts : List (List UInt8 × SupervisorOutcome) :=
  [(ascii "\"completed\"", .completed), (ascii "\"failed\"", .failed),
   (ascii "\"cancelled\"", .cancelled), (ascii "\"deadline\"", .deadline)]

def outcomeText : SupervisorOutcome → List UInt8
  | .completed => ascii "\"completed\""
  | .failed => ascii "\"failed\""
  | .cancelled => ascii "\"cancelled\""
  | .deadline => ascii "\"deadline\""

def categoryTexts : List (List UInt8 × Option SupervisorFailureCategory) :=
  [(ascii "null", none), (ascii "\"permission\"", some .permission),
   (ascii "\"timeout\"", some .timeout), (ascii "\"runtime\"", some .runtime),
   (ascii "\"infrastructure\"", some .infrastructure),
   (ascii "\"child_crash\"", some .childCrash)]

def categoryText : Option SupervisorFailureCategory → List UInt8
  | none => ascii "null"
  | some .permission => ascii "\"permission\""
  | some .timeout => ascii "\"timeout\""
  | some .runtime => ascii "\"runtime\""
  | some .infrastructure => ascii "\"infrastructure\""
  | some .childCrash => ascii "\"child_crash\""

/-- `Option<i32>`: ten digits are enough. -/
def exitCodeText : Option Int32 → List UInt8
  | none => ascii "null"
  | some code =>
      if code.toInt < 0 then ascii "-" ++ decimal 9 code.toInt.natAbs
      else decimal 9 code.toInt.natAbs

def readExitCode (input : List UInt8) : Option (Option Int32 × List UInt8) :=
  match expect (ascii "null") input with
  | some rest => some (none, rest)
  | none =>
      match expect (ascii "-") input with
      | some rest =>
          let (n, rest) := readNumber 0 rest
          some (some (Int32.ofInt (-n)), rest)
      | none =>
          let (n, rest) := readNumber 0 input
          some (some (Int32.ofInt n), rest)

/-- `Vec<u8>` is an array of numbers. -/
def bytesText (bytes : List UInt8) : List UInt8 :=
  ascii "[" ++ (ascii ",").intercalate (bytes.map fun b => decimal 2 b.toNat) ++ ascii "]"

def boolText (value : Bool) : List UInt8 :=
  if value then ascii "true" else ascii "false"

/-- The text of a `SupervisorTerminal`, field by field. -/
def terminalText (terminal : SupervisorTerminal) : List UInt8 :=
  ascii "\x7b\"outcome\":" ++ (outcomeText terminal.outcome ++
    (ascii ",\"exit_code\":" ++ (exitCodeText terminal.exitCode ++
      (ascii ",\"category\":" ++ (categoryText terminal.category ++
        (ascii ",\"stdout\":" ++ (bytesText terminal.stdout ++
          (ascii ",\"stderr\":" ++ (bytesText terminal.stderr ++
            (ascii ",\"truncated\":" ++ (boolText terminal.truncated ++
              ascii "\x7d")))))))))))

/-- Read a terminal without output. -/
def readTerminal (input : List UInt8) : Option SupervisorTerminal := do
  let input ← expect (ascii "\x7b\"outcome\":") input
  let (outcome, input) ← choose outcomeTexts input
  let input ← expect (ascii ",\"exit_code\":") input
  let (exitCode, input) ← readExitCode input
  let input ← expect (ascii ",\"category\":") input
  let (category, input) ← choose categoryTexts input
  let input ← expect
    (ascii ",\"stdout\":[],\"stderr\":[],\"truncated\":false\x7d") input
  if input = [] then
    some { outcome, exitCode, category, stdout := [], stderr := [], truncated := false }
  else none

/-- The serialiser at `SupervisorTerminal`. -/
def jsonTerminals : SerdeJson SupervisorTerminal where
  toVec terminal := .ok (terminalText terminal)
  fromSlice payload :=
    match readTerminal payload with
    | some terminal => .ok terminal
    | none => .error "invalid terminal"

theorem outcomeText_mem (outcome : SupervisorOutcome) :
    (outcomeText outcome, outcome) ∈ outcomeTexts := by
  cases outcome <;> simp [outcomeText, outcomeTexts]

theorem categoryText_mem (category : Option SupervisorFailureCategory) :
    (categoryText category, category) ∈ categoryTexts := by
  cases category with
  | none => simp [categoryText, categoryTexts]
  | some category => cases category <;> simp [categoryText, categoryTexts]

/-- An exit code is read back when something other than a digit follows. -/
theorem readExitCode_text (exitCode : Option Int32) {b : UInt8} (hb : isDigit b = false)
    (rest : List UInt8) :
    readExitCode (exitCodeText exitCode ++ b :: rest) = some (exitCode, b :: rest) := by
  cases exitCode with
  | none => simp [readExitCode, exitCodeText]
  | some code =>
      have hrange : code.toInt.natAbs < 10 ^ (9 + 1) := by
        have hlt := code.toInt_lt
        have hle := code.le_toInt
        omega
      by_cases hneg : code.toInt < 0
      · have hminus : expect (ascii "null")
            (ascii "-" ++ (decimal 9 code.toInt.natAbs ++ b :: rest)) = none := by
          rw [expect, if_neg]
          simp [ascii]
        have habs : -(code.toInt.natAbs : Int) = code.toInt := by omega
        rw [exitCodeText, if_pos hneg, List.append_assoc, readExitCode, hminus, expect_append]
        dsimp only
        rw [readNumber_decimal_stop hrange hb, habs, Int32.ofInt_toInt]
      · have habs : (code.toInt.natAbs : Int) = code.toInt := by omega
        rw [exitCodeText, if_neg hneg, readExitCode,
          show ascii "null" = 110 :: [117, 108, 108] from by decide, expect_decimal rfl,
          show ascii "-" = 45 :: [] from by decide, expect_decimal rfl]
        dsimp only
        rw [readNumber_decimal_stop hrange hb, habs, Int32.ofInt_toInt]

/-- Reading back the text of a terminal of valid shape. -/
theorem readTerminal_text {terminal : SupervisorTerminal}
    (shape : validateSupervisorTerminalShape terminal = .ok ()) :
    readTerminal (terminalText terminal) = some terminal := by
  obtain ⟨-, hout, herr, htruncated⟩ := validateSupervisorTerminalShape_ok.mp shape
  have houtcomes : PrefixFree outcomeTexts := by unfold PrefixFree; decide
  have hcategories : PrefixFree categoryTexts := by unfold PrefixFree; decide
  have htail : ascii ",\"stdout\":" ++ (bytesText [] ++ (ascii ",\"stderr\":" ++ (bytesText [] ++
      (ascii ",\"truncated\":" ++ (boolText false ++ ascii "\x7d"))))) =
      ascii ",\"stdout\":[],\"stderr\":[],\"truncated\":false\x7d" := by decide
  have hcomma : ∀ more : List UInt8, ascii ",\"category\":" ++ more =
      44 :: (ascii "\"category\":" ++ more) := fun more => by
    rw [show ascii ",\"category\":" = 44 :: ascii "\"category\":" from by decide, List.cons_append]
  have hexit : ∀ more : List UInt8,
      readExitCode (exitCodeText terminal.exitCode ++ (ascii ",\"category\":" ++ more)) =
        some (terminal.exitCode, ascii ",\"category\":" ++ more) := fun more => by
    rw [hcomma, readExitCode_text _ (by decide)]
  have hdone : ∀ literal : List UInt8, expect literal literal = some [] := fun literal => by
    simpa using expect_append literal []
  rw [readTerminal, terminalText, hout, herr, htruncated, htail]
  simp only [expect_append, choose_append houtcomes (outcomeText_mem _), hexit,
    choose_append hcategories (categoryText_mem _), hdone, Option.bind_eq_bind,
    Option.bind_some, if_true]
  cases terminal
  simp_all

theorem length_outcomeText (outcome : SupervisorOutcome) :
    (outcomeText outcome).length ≤ 11 := by
  cases outcome <;> decide

theorem length_categoryText (category : Option SupervisorFailureCategory) :
    (categoryText category).length ≤ 16 := by
  cases category with
  | none => decide
  | some category => cases category <;> decide

theorem length_exitCodeText (exitCode : Option Int32) :
    (exitCodeText exitCode).length ≤ 11 := by
  cases exitCode with
  | none => decide
  | some code =>
      have hdigits := length_decimal 9 code.toInt.natAbs
      rw [exitCodeText]
      split
      · rw [List.length_append, show (ascii "-").length = 1 from by decide]
        omega
      · omega

/-- A terminal of valid shape is far shorter than a frame may be. -/
theorem length_terminalText {terminal : SupervisorTerminal}
    (shape : validateSupervisorTerminalShape terminal = .ok ()) :
    (terminalText terminal).length ≤ 120 := by
  obtain ⟨-, hout, herr, htruncated⟩ := validateSupervisorTerminalShape_ok.mp shape
  have houtcome := length_outcomeText terminal.outcome
  have hcategory := length_categoryText terminal.category
  have hexit := length_exitCodeText terminal.exitCode
  have hbytes : (bytesText []).length = 2 := by decide
  have hbool : (boolText false).length = 5 := by decide
  rw [terminalText, hout, herr, htruncated]
  simp only [List.length_append, hbytes, hbool]
  rw [show (ascii "\x7b\"outcome\":").length = 11 from by decide,
    show (ascii ",\"exit_code\":").length = 13 from by decide,
    show (ascii ",\"category\":").length = 12 from by decide,
    show (ascii ",\"stdout\":").length = 10 from by decide,
    show (ascii ",\"stderr\":").length = 10 from by decide,
    show (ascii ",\"truncated\":").length = 13 from by decide,
    show (ascii "\x7d").length = 1 from by decide]
  omega

theorem jsonTerminals_faithful :
    jsonTerminals.Faithful fun terminal => validateSupervisorTerminalShape terminal = .ok () where
  serializes terminal shape := by
    refine ⟨_, rfl, ?_⟩
    have hlength := length_terminalText shape
    have hbound : 120 ≤ maxSupervisorFramePayload := by decide
    omega
  round_trip terminal payload shape h := by
    obtain rfl := Except.ok.inj h
    simp only [jsonTerminals, readTerminal_text shape]

end Libdeno.Supervisor
