import Libdeno.Broker.Line

/-!
# Libdeno.Broker.Stream

Repeated calls of `read_broker_line` on one connection. However the stream is cut into
chunks, the calls give back its lines, cut behind every newline; what the stream ends with
between two newlines is an error, and from there on there is nothing (`broker_line_reader`).

The loop's arithmetic is that of `usize`: with every subtraction and every growth of the
prefix checked it is the same loop (`readBrokerLines_checked`), because the prefix holds one
byte more than a line may have at most, and no longer grows when it does.
-/

namespace Libdeno.Broker

open Json

/-- Chunks of any length and interruptions; the stream ends behind the last one. -/
def Unbroken (fills : List Fill) : Prop :=
  ∀ fill ∈ fills, fill = .interrupted ∨ ∃ available, available ≠ [] ∧ fill = .bytes available

/-- A stream as the buffered reader delivers it. -/
structure Cut (fills : List Fill) (stream : List UInt8) : Prop where
  unbroken : Unbroken fills
  received_eq : received fills = stream

section

variable (reader : MapReader)

/-- The results of so many calls in a row. -/
def readBrokerLines : Nat → List Fill → List (Except IoError (Option BrokerLine))
  | 0, _ => []
  | calls + 1, fills =>
      let (result, fills') := readBrokerLine reader fills
      result :: readBrokerLines calls fills'

/-- What a piece of the stream that ends with its only newline, or with the stream, is
answered with. -/
def pieceResult (piece : List UInt8) : Except IoError (Option BrokerLine) :=
  if piece.getLast? = some newline then .ok (some (brokerLine reader piece))
  else .error (invalidData "unterminated broker request")

/-- The stream cut behind its newlines, and nothing for ever after. -/
def streamResults (stream : List UInt8) (calls : Nat) :
    List (Except IoError (Option BrokerLine)) :=
  ((Lines.splitInclusive newline stream).map (pieceResult reader) ++
    List.replicate calls (Except.ok none)).take calls

/-! ### With checked arithmetic -/

/-- The prefix after one `fill_buf`: nothing where `MAX_BROKER_LINE_BYTES + 1 - prefix.len()`
underflows, or where the prefix gets longer than a line may be by more than one byte. -/
def checkedKeep (kept : List UInt8) (oversized : Bool) (available : List UInt8) (count : Nat) :
    Option (List UInt8) :=
  if oversized then some kept
  else if maxBrokerLineBytes + 1 < kept.length then none
  else
    let kept' := kept ++ available.take (min count (maxBrokerLineBytes + 1 - kept.length))
    if maxBrokerLineBytes + 1 < kept'.length then none else some kept'

/-- The loop of `read_broker_line` with both checks; nothing where one of them fails. -/
def checkedLineFrom (kept : List UInt8) (oversized : Bool) :
    List Fill → Option (Except IoError (Option BrokerLine) × List Fill)
  | [] => some (readEnd kept, [])
  | .interrupted :: fills => checkedLineFrom kept oversized fills
  | .failed error :: fills => some (.error error, fills)
  | .bytes available :: fills =>
      if available = [] then some (readEnd kept, fills)
      else
        let count := lineCount available
        match checkedKeep kept oversized available count with
        | none => none
        | some kept' =>
            let oversized' := oversized || decide (maxBrokerLineBytes < kept'.length)
            if (available.take count).getLast? = some newline then
              let line :=
                if oversized' then .oversized (brokerRequestId reader kept' true)
                else .request kept'
              let left := available.drop count
              some (.ok (some line), if left = [] then fills else .bytes left :: fills)
            else checkedLineFrom kept' oversized' fills

/-- Calls in a row, with the checks. -/
def checkedLines : Nat → List Fill → Option (List (Except IoError (Option BrokerLine)))
  | 0, _ => some []
  | calls + 1, fills =>
      match checkedLineFrom reader [] false fills with
      | none => none
      | some (result, fills') => (checkedLines calls fills').map fun results => result :: results

end

variable {reader : MapReader} {fills : List Fill} {stream kept seen : List UInt8}
  {oversized : Bool}

theorem Keeps.length_le (keeps : Keeps seen kept oversized) :
    kept.length ≤ maxBrokerLineBytes + 1 := by
  rw [keeps.kept_eq]
  exact List.length_take_le _ _

theorem checkedKeep_eq (keeps : Keeps seen kept oversized) (available : List UInt8) :
    checkedKeep kept oversized available (lineCount available) =
      some (if oversized then kept
        else kept ++ available.take
          (min (lineCount available) (maxBrokerLineBytes + 1 - kept.length))) := by
  rw [checkedKeep]
  cases oversized with
  | true => rfl
  | false =>
      have hroom := keeps.length_le
      have hlength : (kept ++ available.take (min (lineCount available)
          (maxBrokerLineBytes + 1 - kept.length))).length ≤ maxBrokerLineBytes + 1 := by
        rw [List.length_append, List.length_take]
        omega
      rw [if_neg Bool.false_ne_true, if_neg Bool.false_ne_true, if_neg (by omega)]
      exact if_neg (by omega)

/-- Neither check fails while the prefix is the beginning of what was seen. -/
theorem checkedLineFrom_eq (keeps : Keeps seen kept oversized) :
    checkedLineFrom reader kept oversized fills =
      some (readBrokerLineFrom reader kept oversized fills) := by
  induction fills generalizing seen kept oversized with
  | nil => rfl
  | cons fill fills ih =>
      cases fill with
      | interrupted => exact ih keeps
      | failed error => rfl
      | bytes available =>
          have hstep := keeps.step (available.take (lineCount available))
          rw [List.take_take, Nat.min_comm] at hstep
          rw [checkedLineFrom, readBrokerLineFrom]
          by_cases hempty : available = []
          · rw [if_pos hempty, if_pos hempty]
          · rw [if_neg hempty, if_neg hempty]
            simp only [checkedKeep_eq keeps]
            by_cases hlast : (available.take (lineCount available)).getLast? = some newline
            · simp only [if_pos hlast]
            · simp only [if_neg hlast]
              exact ih hstep

/-- **The subtraction never underflows and the prefix never grows beyond one byte more than
the maximum.** -/
theorem readBrokerLines_checked (calls : Nat) (fills : List Fill) :
    checkedLines reader calls fills = some (readBrokerLines reader calls fills) := by
  induction calls generalizing fills with
  | zero => rfl
  | succ calls ih =>
      rw [checkedLines, checkedLineFrom_eq .init]
      simp only [ih]
      rfl

/-! ### The lines of the stream -/

theorem Unbroken.tail {fill : Fill} (h : Unbroken (fill :: fills)) : Unbroken fills :=
  fun fill mem => h fill (List.mem_cons_of_mem _ mem)

/-- A call leaves chunks behind. -/
theorem Unbroken.left (h : Unbroken fills) :
    Unbroken (readBrokerLineFrom reader kept oversized fills).2 := by
  induction fills generalizing kept oversized with
  | nil => exact h
  | cons fill fills ih =>
      have htail := h.tail
      cases fill with
      | interrupted => exact ih htail
      | failed error => exact htail
      | bytes available =>
          rw [readBrokerLineFrom]
          by_cases hempty : available = []
          · rw [if_pos hempty]
            exact htail
          · rw [if_neg hempty]
            by_cases hlast : (available.take (lineCount available)).getLast? = some newline
            · simp only [if_pos hlast]
              split_ifs with hleft
              · exact htail
              · intro fill mem
                rcases List.mem_cons.mp mem with rfl | mem
                · exact .inr ⟨_, hleft, rfl⟩
                · exact htail fill mem
            · simp only [if_neg hlast]
              exact ih htail

/-- A stream that ends before the next newline ends the call, with an error unless there is
nothing at all. -/
theorem readBrokerLineFrom_last (keeps : Keeps seen kept oversized) (unbroken : Unbroken fills)
    (h : newline ∉ received fills) :
    readBrokerLineFrom reader kept oversized fills =
      (readEnd (seen ++ received fills), []) := by
  induction fills generalizing seen kept oversized with
  | nil =>
      have hend : readEnd kept = readEnd seen := by simp only [readEnd, keeps.kept_eq_nil]
      rw [readBrokerLineFrom, hend, received, List.append_nil]
  | cons fill fills ih =>
      rcases unbroken fill List.mem_cons_self with rfl | ⟨available, hsome, rfl⟩
      · exact ih keeps unbroken.tail h
      · rw [received, if_neg hsome] at h
        obtain ⟨hno, hrest⟩ := not_or.mp (mt List.mem_append.mpr h)
        have hstep := keeps.step (available.take (lineCount available))
        rw [List.take_take, Nat.min_comm, lineCount_all hno, List.take_length] at hstep
        have hlast : available.getLast? ≠ some newline :=
          fun hlast => hno (List.mem_of_getLast? hlast)
        rw [readBrokerLineFrom, if_neg hsome, received, if_neg hsome, ← List.append_assoc]
        simp only [lineCount_all hno, List.take_length, if_neg hlast]
        exact ih hstep unbroken.tail hrest

/-- Calls behind the end of the stream. -/
theorem readBrokerLines_nil (reader : MapReader) (calls : Nat) :
    readBrokerLines reader calls [] = List.replicate calls (.ok none) := by
  induction calls with
  | zero => rfl
  | succ calls ih =>
      rw [readBrokerLines, List.replicate_succ, ← ih]
      rfl

/-- What does not end with its newline is the last piece. -/
theorem splitInclusive_last {bytes : List UInt8} (h : newline ∉ bytes) :
    Lines.splitInclusive newline bytes = if bytes = [] then [] else [bytes] := by
  induction bytes with
  | nil => rfl
  | cons b bytes ih =>
      obtain ⟨hb, hrest⟩ := not_or.mp (mt List.mem_cons.mpr h)
      rw [Lines.splitInclusive, if_neg (Ne.symm hb), ih hrest, if_neg (List.cons_ne_nil _ _)]
      split_ifs with hbytes
      · rw [hbytes]
      · rfl

/-- The stream's end. -/
theorem streamResults_last (h : newline ∉ stream) (calls : Nat) :
    streamResults reader stream (calls + 1) =
      readEnd stream :: List.replicate calls (Except.ok none) := by
  rw [streamResults, splitInclusive_last h, readEnd]
  split_ifs with hstream
  · simp [List.replicate_succ]
  · have hlast : stream.getLast? ≠ some newline := fun hlast => h (List.mem_of_getLast? hlast)
    rw [List.map_singleton, pieceResult, if_neg hlast]
    simp

/-- The stream's first line. -/
theorem streamResults_line {text : List UInt8} (single : newline ∉ text) (more : List UInt8)
    (calls : Nat) :
    streamResults reader (text ++ newline :: more) (calls + 1) =
      .ok (some (brokerLine reader (text ++ [newline]))) :: streamResults reader more calls := by
  have hlast : (text ++ [newline]).getLast? = some newline := by simp
  rw [streamResults, Lines.splitInclusive_append single, List.map_cons, pieceResult,
    if_pos hlast, List.cons_append, List.take_succ_cons, streamResults]
  congr 1
  rw [List.take_append, List.take_append, List.take_replicate, List.take_replicate]
  congr 2
  omega

/-- **The broker's line reader.** However a stream is cut into chunks, and wherever reads are
interrupted, so many calls give the same results: each line of the stream, cut behind its
newline, byte for byte, or as oversized with the id that its first bytes tell, where it is
longer than the maximum; an error for what the stream ends with inside a line; and nothing
behind a line's end. The loop never subtracts below zero and keeps no more than one byte
beyond the maximum. -/
theorem broker_line_reader (reader : MapReader) {fills : List Fill} {stream : List UInt8}
    (cut : Cut fills stream) (calls : Nat) :
    readBrokerLines reader calls fills = streamResults reader stream calls ∧
      checkedLines reader calls fills = some (readBrokerLines reader calls fills) := by
  refine ⟨?_, readBrokerLines_checked calls fills⟩
  induction calls generalizing fills stream with
  | zero => rfl
  | succ calls ih =>
      obtain ⟨unbroken, harrived⟩ := cut
      rw [readBrokerLines]
      by_cases hnew : newline ∈ stream
      · obtain ⟨text, more, hstream, single⟩ := List.eq_append_cons_of_mem hnew
        rw [hstream] at harrived
        obtain ⟨fills', hrun, hmore⟩ := readBrokerLine_line reader single harrived
        have hleft : Unbroken (readBrokerLine reader fills).2 := unbroken.left
        rw [hrun] at hleft ⊢
        rw [hstream, streamResults_line single, ← ih ⟨hleft, hmore⟩]
      · rw [← harrived] at hnew
        have hrun : readBrokerLine reader fills = (readEnd stream, []) := by
          rw [← harrived]
          exact readBrokerLineFrom_last .init unbroken hnew
        rw [hrun, ← harrived, streamResults_last hnew, ← readBrokerLines_nil reader]

/-- Two chunks and an interruption, cut in the middle of the second line. -/
theorem broker_line_reader_sample :
    readBrokerLines mapReader 4 [.bytes [98, 10, 97], .interrupted, .bytes [97]] =
        [.ok (some (.request [98, 10])),
          .error (invalidData "unterminated broker request"), .ok none, .ok none] ∧
      checkedLines mapReader 4 [.bytes [98, 10, 97], .interrupted, .bytes [97]] =
        some (readBrokerLines mapReader 4
          [.bytes [98, 10, 97], .interrupted, .bytes [97]]) := by
  have unbroken : Unbroken [.bytes [98, 10, 97], .interrupted, .bytes [97]] := by
    intro fill mem
    simp only [List.mem_cons, List.not_mem_nil, or_false] at mem
    rcases mem with rfl | rfl | rfl
    · exact .inr ⟨_, List.cons_ne_nil _ _, rfl⟩
    · exact .inl rfl
    · exact .inr ⟨_, List.cons_ne_nil _ _, rfl⟩
  have cut : Cut [.bytes [98, 10, 97], .interrupted, .bytes [97]] [98, 10, 97, 97] :=
    ⟨unbroken, rfl⟩
  have hrun := broker_line_reader mapReader cut 4
  refine ⟨hrun.1.trans ?_, hrun.2⟩
  rw [streamResults]
  rfl

end Libdeno.Broker
