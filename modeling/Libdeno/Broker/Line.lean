import Libdeno.Broker.RequestId
import Libdeno.Io

/-!
# Libdeno.Broker.Line

`read_broker_line` of `permission_broker.rs`: one newline-delimited request off a buffered
reader, of which no more than `maxBrokerLineBytes + 1` bytes are kept. A `Fill` is what one
`fill_buf` finds, so that a list of them is a stream with its chunking; `received` are the
bytes that arrive before it ends or fails.

However the stream is cut into chunks, the reader answers from the whole line alone
(`readBrokerLine_line`), so an oversized line's id is recovered from its first bytes, and it is
the line's own unless the cut falls inside its digits (`oversized_line_id`).
-/

namespace Libdeno.Broker

open Json Scan

/-- One `fill_buf`: bytes, none of them at the end of the stream, or an error. -/
inductive Fill where
  | bytes (available : List UInt8)
  | interrupted
  | failed (error : IoError)
  deriving DecidableEq

inductive BrokerLine where
  | request (line : List UInt8)
  | oversized (id : Option Nat)
  deriving DecidableEq, Repr

def newline : UInt8 := byte '\n'

/-- What is taken of the available bytes: all of them, or those up to the first newline. -/
def lineCount (available : List UInt8) : Nat :=
  match available.findIdx? fun b => b = newline with
  | some i => i + 1
  | none => available.length

/-- The end of the stream: only between two lines is it no error. -/
def readEnd (kept : List UInt8) : Except IoError (Option BrokerLine) :=
  if kept = [] then .ok none else .error (invalidData "unterminated broker request")

section

variable (reader : MapReader)

/-- The loop of `read_broker_line`: the bytes kept so far and whether there are too many. -/
def readBrokerLineFrom (kept : List UInt8) (oversized : Bool) :
    List Fill → Except IoError (Option BrokerLine) × List Fill
  | [] => (readEnd kept, [])
  | .interrupted :: fills => readBrokerLineFrom kept oversized fills
  | .failed error :: fills => (.error error, fills)
  | .bytes available :: fills =>
      if available = [] then (readEnd kept, fills)
      else
        let count := lineCount available
        let room := maxBrokerLineBytes + 1 - kept.length
        let kept' := if oversized then kept else kept ++ available.take (min count room)
        let oversized' := oversized || decide (maxBrokerLineBytes < kept'.length)
        if (available.take count).getLast? = some newline then
          let line :=
            if oversized' then .oversized (brokerRequestId reader kept' true)
            else .request kept'
          let left := available.drop count
          (.ok (some line), if left = [] then fills else .bytes left :: fills)
        else
          -- without a newline all that is available was taken
          readBrokerLineFrom kept' oversized' fills

/-- `read_broker_line` -/
def readBrokerLine (fills : List Fill) : Except IoError (Option BrokerLine) × List Fill :=
  readBrokerLineFrom reader [] false fills

/-- The bytes that arrive. -/
def received : List Fill → List UInt8
  | [] => []
  | .interrupted :: fills => received fills
  | .failed _ :: _ => []
  | .bytes available :: fills => if available = [] then [] else available ++ received fills

/-- How a whole line is answered. -/
def brokerLine (line : List UInt8) : BrokerLine :=
  if maxBrokerLineBytes < line.length then
    .oversized (brokerRequestId reader (line.take (maxBrokerLineBytes + 1)) true)
  else .request line

end

/-! ### The kept bytes -/

/-- What the loop keeps of the bytes of a line it has seen. -/
structure Keeps (seen kept : List UInt8) (oversized : Bool) : Prop where
  kept_eq : kept = seen.take (maxBrokerLineBytes + 1)
  oversized_eq : oversized = decide (maxBrokerLineBytes < seen.length)

theorem Keeps.init : Keeps [] [] false := ⟨rfl, rfl⟩

theorem Keeps.kept_eq_nil {seen kept : List UInt8} {oversized : Bool}
    (h : Keeps seen kept oversized) : kept = [] ↔ seen = [] := by
  rw [h.kept_eq, List.take_eq_nil_iff]
  simp

/-- Further bytes of the line. -/
theorem Keeps.step {seen kept : List UInt8} {oversized : Bool}
    (h : Keeps seen kept oversized) (taken : List UInt8) :
    let kept' := if oversized then kept
      else kept ++ taken.take (maxBrokerLineBytes + 1 - kept.length)
    Keeps (seen ++ taken) kept' (oversized || decide (maxBrokerLineBytes < kept'.length)) := by
  have hkept := h.kept_eq
  have hover := h.oversized_eq
  by_cases hlong : maxBrokerLineBytes < seen.length
  · have hyes : oversized = true := hover.trans (decide_eq_true hlong)
    rw [hyes]
    constructor
    · show kept = (seen ++ taken).take (maxBrokerLineBytes + 1)
      rw [hkept, List.take_append_of_le_length (by omega)]
    · show true = _
      rw [eq_comm, decide_eq_true_eq, List.length_append]
      omega
  · have hno : oversized = false := hover.trans (decide_eq_false hlong)
    have hall : kept = seen := by rw [hkept, List.take_of_length_le (by omega)]
    rw [hno, hall]
    have htake : seen ++ taken.take (maxBrokerLineBytes + 1 - seen.length) =
        (seen ++ taken).take (maxBrokerLineBytes + 1) := by
      rw [List.take_append, List.take_of_length_le (i := maxBrokerLineBytes + 1) (by omega)]
    constructor
    · exact htake
    · show (false || decide (maxBrokerLineBytes <
        (seen ++ taken.take (maxBrokerLineBytes + 1 - seen.length)).length)) = _
      rw [Bool.false_or, htake, decide_eq_decide, List.length_take]
      omega

/-! ### One line -/

theorem lineCount_line {line : List UInt8} (single : newline ∉ line) (left : List UInt8) :
    lineCount (line ++ newline :: left) = line.length + 1 := by
  have hfind : (line ++ newline :: left).findIdx? (fun b => b = newline) =
      some line.length := by
    induction line with
    | nil => rfl
    | cons b line ih =>
        rw [List.mem_cons, not_or] at single
        rw [List.cons_append, List.findIdx?_cons, if_neg (by simp [Ne.symm single.1]),
          ih single.2]
        rfl
  rw [lineCount, hfind]

/-- The line is taken with its newline. -/
theorem take_lineCount {line : List UInt8} (single : newline ∉ line) (left : List UInt8) :
    (line ++ newline :: left).take (lineCount (line ++ newline :: left)) =
      line ++ [newline] := by
  rw [lineCount_line single, List.append_cons]
  exact List.take_left' (by simp)

theorem drop_lineCount {line : List UInt8} (single : newline ∉ line) (left : List UInt8) :
    (line ++ newline :: left).drop (lineCount (line ++ newline :: left)) = left := by
  rw [lineCount_line single, List.append_cons]
  exact List.drop_left' (by simp)

theorem lineCount_all {available : List UInt8} (h : newline ∉ available) :
    lineCount available = available.length := by
  have hfind : available.findIdx? (fun b => b = newline) = none := by
    rw [List.findIdx?_eq_none_iff]
    intro b mem
    exact decide_eq_false fun heq => h (heq ▸ mem)
  rw [lineCount, hfind]

/-- Cut a text that arrives in two parts at its first newline: it is in the first part, or
all of that part belongs to the line. -/
theorem append_eq_line {available rest line more : List UInt8}
    (h : available ++ rest = line ++ newline :: more) :
    (∃ left, available = line ++ newline :: left ∧ more = left ++ rest) ∨
    ∃ line', line = available ++ line' ∧ rest = line' ++ newline :: more := by
  rcases List.append_eq_append_iff.mp h with ⟨line', hline, hrest⟩ | ⟨left, havail, hmore⟩
  · exact .inr ⟨line', hline, hrest⟩
  · cases left with
    | nil =>
        rw [List.append_nil] at havail
        exact .inr ⟨[], by rw [havail, List.append_nil], hmore.symm⟩
    | cons b left =>
        injection hmore with hb hmore
        exact .inl ⟨left, by rw [havail, ← hb], hmore⟩

variable {reader : MapReader} {fills : List Fill} {seen kept line more : List UInt8}
  {oversized : Bool}

/-- The answer from what was kept is the answer from the line. -/
theorem Keeps.brokerLine (h : Keeps line kept oversized) :
    (if oversized then .oversized (brokerRequestId reader kept true) else .request kept) =
      brokerLine reader line := by
  rw [Broker.brokerLine, h.oversized_eq, h.kept_eq]
  by_cases hlong : maxBrokerLineBytes < line.length
  · rw [if_pos (decide_eq_true hlong), if_pos hlong]
  · rw [if_neg (by simpa using hlong), if_neg hlong, List.take_of_length_le (by omega)]

theorem received_left (left : List UInt8) :
    received (if left = [] then fills else .bytes left :: fills) = left ++ received fills := by
  split_ifs with hleft
  · rw [hleft, List.nil_append]
  · rw [received, if_neg hleft]

/-- The loop on a line that arrives whole. -/
theorem readBrokerLineFrom_line (keeps : Keeps seen kept oversized)
    (single : newline ∉ line) (arrived : received fills = line ++ newline :: more) :
    ∃ fills', readBrokerLineFrom reader kept oversized fills =
        (.ok (some (brokerLine reader (seen ++ (line ++ [newline])))), fills') ∧
      received fills' = more := by
  induction fills generalizing seen kept oversized line with
  | nil =>
      have := congrArg List.length arrived
      simp [received] at this
  | cons fill fills ih =>
      cases fill with
      | interrupted => exact ih keeps single arrived
      | failed error =>
          have := congrArg List.length arrived
          simp [received] at this
      | bytes available =>
          rw [received] at arrived
          split_ifs at arrived with hempty
          · have := congrArg List.length arrived
            simp at this
          · have hstep := keeps.step (available.take (lineCount available))
            rw [List.take_take, Nat.min_comm] at hstep
            rw [readBrokerLineFrom, if_neg hempty]
            rcases append_eq_line arrived with
              ⟨left, havail, hmore⟩ | ⟨line', hline, hrest⟩
            · -- the newline is among the available bytes
              rw [havail, take_lineCount single, ← havail] at hstep
              have hlast : (available.take (lineCount available)).getLast? = some newline := by
                rw [havail, take_lineCount single]
                simp
              rw [if_pos hlast]
              refine ⟨_, Prod.ext ?_ rfl, ?_⟩
              · show Except.ok (some (if _ then _ else _)) = _
                rw [hstep.brokerLine]
              · rw [hmore, havail, drop_lineCount single, received_left]
            · -- all of them belong to the line
              have hno : newline ∉ available := by
                intro mem
                exact single (hline ▸ List.mem_append_left _ mem)
              rw [lineCount_all hno, List.take_length] at hstep
              have hlast : (available.take (lineCount available)).getLast? ≠ some newline := by
                rw [lineCount_all hno, List.take_length]
                intro hlast
                exact hno (List.mem_of_getLast? hlast)
              rw [if_neg hlast, lineCount_all hno]
              have hsingle : newline ∉ line' := fun mem =>
                single (hline ▸ List.mem_append_right _ mem)
              obtain ⟨fills', hrun, hmore⟩ := ih hstep hsingle hrest
              refine ⟨fills', ?_, hmore⟩
              rw [hline, List.append_assoc, ← List.append_assoc seen]
              exact hrun

/-- **A line is answered from its bytes**, however they arrive, and what follows it stays. -/
theorem readBrokerLine_line (reader : MapReader) (single : newline ∉ line)
    (arrived : received fills = line ++ newline :: more) :
    ∃ fills', readBrokerLine reader fills =
        (.ok (some (brokerLine reader (line ++ [newline]))), fills') ∧
      received fills' = more :=
  readBrokerLineFrom_line .init single arrived

/-- Without a further newline there is no line. -/
theorem readBrokerLineFrom_none (h : newline ∉ received fills) (line : BrokerLine) :
    (readBrokerLineFrom reader kept oversized fills).1 ≠ .ok (some line) := by
  have hend : ∀ kept, readEnd kept ≠ .ok (some line) := by
    intro kept heq
    rw [readEnd] at heq
    split_ifs at heq
    cases heq
  induction fills generalizing kept oversized with
  | nil => exact hend kept
  | cons fill fills ih =>
      cases fill with
      | interrupted => exact ih h
      | failed error =>
          intro heq
          cases heq
      | bytes available =>
          rw [readBrokerLineFrom]
          rw [received] at h
          by_cases hempty : available = []
          · rw [if_pos hempty]
            exact hend kept
          · rw [if_neg hempty, List.mem_append, not_or] at h
            have hlast : (available.take (lineCount available)).getLast? ≠ some newline :=
              fun hlast => h.1 (List.mem_of_mem_take (List.mem_of_getLast? hlast))
            rw [if_neg hempty, if_neg hlast]
            exact ih h.2

theorem readBrokerLine_none (h : newline ∉ received fills) (line : BrokerLine) :
    (readBrokerLine reader fills).1 ≠ .ok (some line) :=
  readBrokerLineFrom_none h line

/-- The line is ended by its only newline. -/
def IsLine (line : List UInt8) : Prop := ∃ text, line = text ++ [newline] ∧ newline ∉ text

/-- What is recovered from the beginning of an object is nothing or its id, exactly where the
beginning does not end inside the id. -/
theorem own_iff_not_cut (object : SingleId reader line) :
    let recovered := brokerRequestId reader (line.take (maxBrokerLineBytes + 1)) true
    (recovered = none ∨ recovered = ownId reader line) ↔ ¬ CutInId reader line := by
  obtain ⟨found, whole, -⟩ := object
  have hsplit := (List.take_append_drop (maxBrokerLineBytes + 1) line).symm
  constructor
  · intro h ⟨body, text, n, hopen, hat, hnumber, hgoes⟩
    have hid := brokerRequestId_cut hopen hat hnumber
    have hne := ownId_ne_of_cut (hsplit ▸ whole) hopen hat hnumber hgoes
    rw [← hsplit] at hne
    simp only [hid] at h
    rcases h with h | h
    · cases h
    · exact hne h.symm
  · intro hcut
    cases hid : brokerRequestId reader (line.take (maxBrokerLineBytes + 1)) true with
    | none => exact .inl rfl
    | some n =>
        right
        rcases ownId_of_brokerRequestId hid (hsplit ▸ whole) with hown |
          ⟨body, text, hopen, hat, hnumber, hgoes⟩
        · rw [← hsplit] at hown
          exact hown.symm
        · exact absurd ⟨body, text, n, hopen, hat, hnumber, hgoes⟩ hcut

/-- **The id answered for an oversized line.** Whatever the chunking, the reader answers a
line that is too long with an id recovered from its beginning. For an object with exactly one
id, what is recovered is nothing or that id, unless the bytes kept end inside the digits of
the id: then it is the number they make so far, which is not the line's. -/
theorem oversized_line_id (reader : MapReader) {fills : List Fill} {line more : List UInt8}
    (isLine : IsLine line) (arrived : received fills = line ++ more)
    (long : maxBrokerLineBytes < line.length) (object : SingleId reader line) :
    ∃ recovered fills',
      readBrokerLine reader fills = (.ok (some (.oversized recovered)), fills') ∧
      ((recovered = none ∨ recovered = ownId reader line) ↔ ¬ CutInId reader line) := by
  obtain ⟨text, hline, single⟩ := isLine
  rw [hline, List.append_assoc] at arrived
  obtain ⟨fills', hrun, -⟩ := readBrokerLine_line reader single arrived
  rw [← hline, brokerLine, if_pos long] at hrun
  exact ⟨_, fills', hrun, own_iff_not_cut object⟩

/-! ### A line cut inside its id -/

/-- A member of `k` bytes and an id. -/
def sampleMembers (k : Nat) (number : List UInt8) : List UInt8 :=
  keyText true ['x'] ++ (byte ':' :: byte '"' ::
    (List.replicate k (byte 'a') ++ byte '"' :: (keyText false idKey ++ number)))

/-- `{"x":"aa…a","id":1234}` -/
def sampleLine (k : Nat) : List UInt8 := byte '{' :: sampleMembers k (Text.ascii ":1234\x7d\n")

theorem sampleMembers_append (k : Nat) (number more : List UInt8) :
    sampleMembers k (number ++ more) = sampleMembers k number ++ more := by
  simp only [sampleMembers, List.append_assoc, List.cons_append]

theorem length_sampleMembers (k : Nat) (number : List UInt8) :
    (sampleMembers k number).length = k + 11 + number.length := by
  have hx : (keyText true ['x']).length = 3 := by decide
  have hid : (keyText false idKey).length = 5 := by decide
  simp only [sampleMembers, List.length_cons, List.length_append, List.length_replicate, hx, hid]
  omega

theorem take_sampleLine {k : Nat} (hk : k + 14 = maxBrokerLineBytes) :
    (sampleLine k).take (maxBrokerLineBytes + 1) =
      byte '{' :: sampleMembers k (Text.ascii ":12") := by
  have hsplit : Text.ascii ":1234\x7d\n" = Text.ascii ":12" ++ Text.ascii "34\x7d\n" := by decide
  rw [sampleLine, hsplit, sampleMembers_append, ← List.cons_append]
  refine List.take_left' ?_
  have hnumber : (Text.ascii ":12").length = 3 := by decide
  rw [List.length_cons, length_sampleMembers, hnumber]
  omega

theorem openObject_brace (rest : List UInt8) :
    mapReader.openObject (byte '{' :: rest) = .ok () rest := by
  have hnext : openMachine.next () (byte '{') = .accept () := rfl
  exact Machine.run_accept hnext rest

theorem nextKey_sample (k : Nat) (number : List UInt8) :
    ∃ rest, mapReader.nextKey true (sampleMembers k number) = .ok (some ['x']) rest ∧
      mapReader.skipValue rest = .ok () (keyText false idKey ++ number) ∧
      mapReader.nextKey false (keyText false idKey ++ number) = .ok (some idKey) number := by
  refine ⟨_, nextKey_keyText (by decide +kernel) true _, ?_,
    nextKey_keyText (by decide +kernel) false number⟩
  refine skipValue_text ?_ _
  intro b mem
  rw [List.eq_of_mem_replicate mem]
  rfl

theorem idAt_sample (k : Nat) (number : List UInt8) :
    IdAt mapReader true (sampleMembers k number) number := by
  obtain ⟨rest, hx, hvalue, hid⟩ := nextKey_sample k number
  exact .later hx (by decide) hvalue (.here hid)

theorem objectMembers_sampleLine (k : Nat) : ∃ rest, objectMembers mapReader (sampleLine k) =
    some [(['x'], rest), (idKey, Text.ascii ":1234\x7d\n")] := by
  obtain ⟨rest, hx, hvalue, hid⟩ := nextKey_sample k (Text.ascii ":1234\x7d\n")
  have hnumber : mapReader.skipValue (Text.ascii ":1234\x7d\n") =
      .ok () (Text.ascii "\x7d\n") := by decide
  have hend : mapReader.nextKey false (Text.ascii "\x7d\n") = .ok none (Text.ascii "\n") := by
    decide
  have hlast : members mapReader false (Text.ascii "\x7d\n") =
      some ([], Text.ascii "\n") := by
    rw [members, hend]
  have htail : members mapReader false (keyText false idKey ++ Text.ascii ":1234\x7d\n") =
      some ([(idKey, Text.ascii ":1234\x7d\n")], Text.ascii "\n") := by
    rw [members, hid]
    simp only
    rw [hnumber]
    simp only
    rw [hlast]
    rfl
  have hall : members mapReader true (sampleMembers k (Text.ascii ":1234\x7d\n")) =
      some ([(['x'], rest), (idKey, Text.ascii ":1234\x7d\n")], Text.ascii "\n") := by
    rw [members, hx]
    simp only
    rw [hvalue]
    simp only
    rw [htail]
    rfl
  refine ⟨rest, ?_⟩
  rw [objectMembers, sampleLine, openObject_brace]
  simp only
  rw [hall]
  simp only
  rw [if_pos (by decide)]

theorem sampleLine_isLine (k : Nat) : IsLine (sampleLine k) := by
  have hsplit : Text.ascii ":1234\x7d\n" = Text.ascii ":1234\x7d" ++ [newline] := by decide
  refine ⟨byte '{' :: sampleMembers k (Text.ascii ":1234\x7d"), ?_, ?_⟩
  · rw [sampleLine, hsplit, sampleMembers_append, List.cons_append]
  · have hx : newline ∉ keyText true ['x'] := by decide
    have hid : newline ∉ keyText false idKey := by decide
    have hnumber : newline ∉ Text.ascii ":1234\x7d" := by decide
    have hfiller : newline ∉ List.replicate k (byte 'a') := by
      intro mem
      exact absurd (List.eq_of_mem_replicate mem) (by decide)
    have hne : newline ≠ byte '{' ∧ newline ≠ byte ':' ∧ newline ≠ byte '"' := by decide
    simp only [sampleMembers, List.mem_cons, List.mem_append, hx, hid, hnumber, hfiller, hne,
      or_self, not_false_eq_true]

theorem ownId_sampleLine (k : Nat) : ownId mapReader (sampleLine k) = some 1234 := by
  obtain ⟨rest, hmembers⟩ := objectMembers_sampleLine k
  have hnumber : mapReader.nextU32 (Text.ascii ":1234\x7d\n") =
      .ok 1234 (Text.ascii "\x7d\n") := by decide
  rw [ownId_of_idAt hmembers (openObject_brace _) (idAt_sample _ _), hnumber]

theorem singleId_sampleLine (k : Nat) : SingleId mapReader (sampleLine k) := by
  obtain ⟨rest, hmembers⟩ := objectMembers_sampleLine k
  refine ⟨_, hmembers, ?_⟩
  have hx : (['x'] : List Char) ≠ idKey := by decide
  rw [List.filter_cons_of_neg (by simpa using hx), List.filter_cons_of_pos (by simp)]
  rfl

theorem length_sampleLine (k : Nat) : (sampleLine k).length = k + 19 := by
  have hnumber : (Text.ascii ":1234\x7d\n").length = 7 := by decide
  rw [sampleLine, List.length_cons, length_sampleMembers, hnumber]

/-- What is kept of the line ends after the second digit. -/
theorem brokerRequestId_sampleLine {k : Nat} (hk : k + 14 = maxBrokerLineBytes) :
    brokerRequestId mapReader ((sampleLine k).take (maxBrokerLineBytes + 1)) true =
      some 12 := by
  rw [take_sampleLine hk]
  exact brokerRequestId_cut (openObject_brace _) (idAt_sample _ _) (by decide)

theorem readBrokerLine_sampleLine {k : Nat} (hk : k + 14 = maxBrokerLineBytes) :
    (readBrokerLine mapReader [.bytes (sampleLine k)]).1 =
      .ok (some (.oversized (some 12))) := by
  have hlong : maxBrokerLineBytes < (sampleLine k).length := by
    rw [length_sampleLine]
    omega
  obtain ⟨text, hline, single⟩ := sampleLine_isLine k
  have arrived : received [.bytes (sampleLine k)] = text ++ newline :: [] := by
    have hne : sampleLine k ≠ [] := List.cons_ne_nil _ _
    rw [received, if_neg hne, received, List.append_nil]
    exact hline
  obtain ⟨fills', hrun, -⟩ := readBrokerLine_line mapReader single arrived
  rw [hrun, ← hline, brokerLine, if_pos hlong, brokerRequestId_sampleLine hk]

/-- The id answered for the request 1234 is 12. -/
theorem oversized_line_id_cut :
    (readBrokerLine mapReader [.bytes (sampleLine 65522)]).1 =
        .ok (some (.oversized (some 12))) ∧
      IsLine (sampleLine 65522) ∧ maxBrokerLineBytes < (sampleLine 65522).length ∧
      SingleId mapReader (sampleLine 65522) ∧
      ownId mapReader (sampleLine 65522) = some 1234 := by
  have hlong : maxBrokerLineBytes < (sampleLine 65522).length := by
    rw [length_sampleLine]
    decide
  exact ⟨readBrokerLine_sampleLine (by decide), sampleLine_isLine _, hlong,
    singleId_sampleLine _, ownId_sampleLine _⟩

theorem oversized_line_id_sample : ∃ recovered fills',
    readBrokerLine mapReader [.bytes (sampleLine 65522)] =
      (.ok (some (.oversized recovered)), fills') ∧
    ((recovered = none ∨ recovered = ownId mapReader (sampleLine 65522)) ↔
      ¬ CutInId mapReader (sampleLine 65522)) := by
  have hlong : maxBrokerLineBytes < (sampleLine 65522).length := by
    rw [length_sampleLine]
    decide
  have arrived : received [.bytes (sampleLine 65522)] = sampleLine 65522 ++ [] := by
    have hne : sampleLine 65522 ≠ [] := List.cons_ne_nil _ _
    rw [received, if_neg hne, received]
  exact oversized_line_id mapReader (sampleLine_isLine _) arrived hlong (singleId_sampleLine _)

end Libdeno.Broker
