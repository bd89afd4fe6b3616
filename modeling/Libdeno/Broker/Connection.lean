import Libdeno.Broker.Line

/-!
# Libdeno.Broker.Connection

`serve_broker_connection` of `permission_broker.rs`: the hook's end of the broker socket. One
request line after the other is answered with `allow` or `deny` until the stream ends, a line
has no id that can be answered, or a response cannot be written.

The connection is a function of the lines it receives (`serve_eq_answers`), so the chunking
does not matter. It fails closed: `connection_fails_closed`. The one thing that can go wrong
is the id of an oversized line that was cut inside its digits.
-/

namespace Libdeno.Broker

open Json Scan

/-- What the hook is asked. -/
structure PermissionRequest where
  name : List Char
  value : Option (List Char)
  deriving DecidableEq

/-- A request as it is decoded. -/
structure BrokerRequest where
  v : Nat
  pid : Nat
  id : Nat
  datetime : List Char
  permission : List Char
  value : Option (List Char)
  deriving DecidableEq

/-- The derived deserialiser of `BrokerRequest`, which takes the id of an object from its
member of that name. -/
structure RequestDecoder (reader : MapReader) where
  fromSlice : List UInt8 → Option BrokerRequest
  fromSlice_id : ∀ {line request}, fromSlice line = some request →
    (objectMembers reader line).isSome → ownId reader line = some request.id

/-- A call of the hook. -/
inductive HookOutcome where
  | returned (allow : Bool)
  | panicked

inductive BrokerResult where
  | allow
  | deny
  deriving DecidableEq, Repr

structure BrokerResponseLine where
  id : Nat
  result : BrokerResult
  reason : Option (List Char)
  deriving DecidableEq, Repr

section

variable {reader : MapReader} (decoder : RequestDecoder reader)

/-- The id a line is answered with, and what the hook is asked; `none` where the connection
is given up. -/
def answerOf : BrokerLine → Option (Nat × Option PermissionRequest)
  | .oversized (some id) => some (id, none)
  | .oversized none => none
  | .request line =>
      match decoder.fromSlice line with
      | some request => some (request.id, some ⟨request.permission, request.value⟩)
      | none => (brokerRequestId reader line false).map fun id => (id, none)

/-- A hook that panics denies. -/
def HookOutcome.allows : HookOutcome → Bool
  | .returned allow => allow
  | .panicked => false

/-- The hook, which may remember what it was asked before. -/
abbrev PermissionPrompt := List PermissionRequest → PermissionRequest → HookOutcome

/-- The response to a request, after the hook was asked `asked`. -/
def respond (hook : PermissionPrompt) (asked : List PermissionRequest) (id : Nat)
    (request : Option PermissionRequest) : BrokerResponseLine :=
  let allow :=
    match request with
    | some request => (hook asked request).allows
    | none => false
  { id := id, result := if allow then .allow else .deny, reason := none }

theorem readBrokerLine_shorter {fills fills' : List Fill} {line : BrokerLine}
    (h : readBrokerLine reader fills = (.ok (some line), fills')) :
    (received fills').length < (received fills).length := by
  by_cases hnew : newline ∈ received fills
  · obtain ⟨text, more, arrived, single⟩ := List.eq_append_cons_of_mem hnew
    obtain ⟨left, hrun, hmore⟩ := readBrokerLine_line reader single arrived
    rw [hrun] at h
    injection h with _ hleft
    rw [← hleft, hmore, arrived, List.length_append, List.length_cons]
    omega
  · exact absurd (congrArg Prod.fst h) (readBrokerLine_none hnew line)

/-- The loop of `serve_broker_connection`: what the hook was asked, how many responses were
written, and `sends` tells whether the next one can be. -/
def serveFrom (hook : PermissionPrompt) (sends : Nat → Bool)
    (asked : List PermissionRequest) (sent : Nat) (fills : List Fill) :
    List BrokerResponseLine :=
  match _hrun : readBrokerLine reader fills with
  | (.ok (some line), fills') =>
      match answerOf decoder line with
      | none => []
      | some (id, request) =>
          respond hook asked id request ::
            if sends sent then
              serveFrom hook sends (asked ++ request.toList) (sent + 1) fills'
            else []
  | _ => []
termination_by (received fills).length
decreasing_by exact readBrokerLine_shorter _hrun

/-- `serve_broker_connection`: the responses that are written, in order. -/
def serveBrokerConnection (hook : PermissionPrompt) (sends : Nat → Bool)
    (fills : List Fill) : List BrokerResponseLine :=
  serveFrom decoder hook sends [] 0 fills

/-! ### The lines of the stream -/

/-- The request lines of a stream; what follows the last newline is none. -/
def requestLines (bytes : List UInt8) : List (List UInt8) :=
  (Lines.splitInclusive newline bytes).filter fun line => line.getLast? = some newline

/-- What the hook is asked because of these lines. -/
def consulted (lines : List (List UInt8)) : List PermissionRequest :=
  lines.filterMap fun line => (answerOf decoder (brokerLine reader line)).bind (·.2)

/-- The connection as a function of its lines. -/
def answers (hook : PermissionPrompt) (sends : Nat → Bool) (asked : List PermissionRequest)
    (sent : Nat) : List (List UInt8) → List BrokerResponseLine
  | [] => []
  | line :: lines =>
      match answerOf decoder (brokerLine reader line) with
      | none => []
      | some (id, request) =>
          respond hook asked id request ::
            if sends sent then
              answers hook sends (asked ++ request.toList) (sent + 1) lines
            else []

/-- The id a line is answered with. -/
def lineId (line : List UInt8) : Option Nat :=
  (answerOf decoder (brokerLine reader line)).map (·.1)

/-- Line `i` is answered: it and all lines before it have an id, and every response before
could be written. -/
def Answered (sends : Nat → Bool) (lines : List (List UInt8)) (i : Nat) : Prop :=
  i < lines.length ∧ (∀ line ∈ lines.take (i + 1), (lineId decoder line).isSome) ∧
    ∀ j < i, sends j = true

end

theorem requestLines_line {text : List UInt8} (single : newline ∉ text) (more : List UInt8) :
    requestLines (text ++ newline :: more) = (text ++ [newline]) :: requestLines more := by
  rw [requestLines, Lines.splitInclusive_append single, List.filter_cons_of_pos (by simp)]
  rfl

theorem requestLines_none {bytes : List UInt8} (h : newline ∉ bytes) :
    requestLines bytes = [] := by
  rw [requestLines, List.filter_eq_nil_iff]
  intro piece mem hlast
  refine h ?_
  rw [← Lines.flatten_splitInclusive newline bytes]
  exact List.mem_flatten.mpr ⟨piece, mem, List.mem_of_getLast? (of_decide_eq_true hlast)⟩

variable {reader : MapReader} {decoder : RequestDecoder reader} {hook : PermissionPrompt}
  {sends : Nat → Bool} {asked : List PermissionRequest} {sent : Nat}

/-- The chunking of the stream does not matter. -/
theorem serveFrom_eq_answers (fills : List Fill) :
    serveFrom decoder hook sends asked sent fills =
      answers decoder hook sends asked sent (requestLines (received fills)) := by
  induction hlen : (received fills).length using Nat.strong_induction_on
    generalizing asked sent fills with
  | _ len ih =>
      by_cases hnew : newline ∈ received fills
      · obtain ⟨text, more, arrived, single⟩ := List.eq_append_cons_of_mem hnew
        obtain ⟨left, hrun, hmore⟩ := readBrokerLine_line reader single arrived
        have hshort := readBrokerLine_shorter hrun
        rw [arrived, requestLines_line single, answers, serveFrom, hrun]
        simp only
        cases answerOf decoder (brokerLine reader (text ++ [newline])) with
        | none => rfl
        | some answer =>
            obtain ⟨id, request⟩ := answer
            simp only
            rw [ih _ (hlen ▸ hshort) left rfl, hmore]
      · rw [requestLines_none hnew, answers, serveFrom]
        split
        · rename_i line fills' hrun
          exact absurd (congrArg Prod.fst hrun) (readBrokerLine_none hnew line)
        · rfl

/-! ### What is answered -/

/-- Each response with its line: its id is the line's, and it allows only what the hook
allowed. -/
theorem answers_get {lines : List (List UInt8)} {i : Nat} {response : BrokerResponseLine}
    (h : (answers decoder hook sends asked sent lines)[i]? = some response) :
    ∃ line id request, lines[i]? = some line ∧
      answerOf decoder (brokerLine reader line) = some (id, request) ∧
      response = respond hook (asked ++ consulted decoder (lines.take i)) id request := by
  induction lines generalizing asked sent i with
  | nil => cases h
  | cons line lines ih =>
      rw [answers] at h
      cases hanswer : answerOf decoder (brokerLine reader line) with
      | none =>
          rw [hanswer] at h
          cases h
      | some answer =>
          obtain ⟨id, request⟩ := answer
          rw [hanswer] at h
          simp only at h
          cases i with
          | zero =>
              rw [List.getElem?_cons_zero] at h
              refine ⟨line, id, request, rfl, hanswer, ?_⟩
              rw [List.take_zero, consulted, List.filterMap_nil, List.append_nil]
              exact (Option.some.inj h).symm
          | succ i =>
              rw [List.getElem?_cons_succ] at h
              by_cases hsends : sends sent = true
              swap
              · rw [if_neg hsends] at h
                cases h
              rw [if_pos hsends] at h
              obtain ⟨line', id', request', hline, hanswer', hresponse⟩ := ih h
              refine ⟨line', id', request', hline, hanswer', ?_⟩
              have hconsulted : consulted decoder ((line :: lines).take (i + 1)) =
                  request.toList ++ consulted decoder (lines.take i) := by
                rw [List.take_succ_cons, consulted, List.filterMap_cons, hanswer]
                cases request <;> rfl
              rw [hresponse, hconsulted, List.append_assoc]

/-- Which lines are answered. -/
theorem lt_length_answers {lines : List (List UInt8)} {i : Nat} :
    i < (answers decoder hook sends asked sent lines).length ↔
      Answered decoder (fun j => sends (sent + j)) lines i := by
  -- By induction on the lines, with the number of answers that were sent before.
  induction lines generalizing asked sent i with
  | nil =>
      constructor
      · intro h
        cases h
      · intro h
        exact h.1
  | cons line lines ih =>
      rw [answers]
      cases hanswer : answerOf decoder (brokerLine reader line) with
      | none =>
          constructor
          · intro h
            cases h
          · intro h
            have hid := h.2.1 line (by rw [List.take_succ_cons]; exact List.mem_cons_self)
            rw [lineId, hanswer] at hid
            cases hid
      | some answer =>
          obtain ⟨id, request⟩ := answer
          have hid : (lineId decoder line).isSome := by
            rw [lineId, hanswer]
            rfl
          simp only
          cases i with
          | zero =>
              constructor
              · intro h
                refine ⟨Nat.succ_pos _, ?_, fun j hj => absurd hj (Nat.not_lt_zero j)⟩
                intro line' mem
                rw [List.take_succ_cons, List.take_zero, List.mem_singleton] at mem
                rw [mem]
                exact hid
              · intro h
                exact Nat.succ_pos _
          | succ i =>
              rw [List.length_cons, Nat.succ_lt_succ_iff]
              by_cases hsends : sends sent = true
              · rw [if_pos hsends, ih]
                constructor
                · intro ⟨hlt, hids, hsent⟩
                  refine ⟨Nat.succ_lt_succ hlt, ?_, ?_⟩
                  · intro line' mem
                    rw [List.take_succ_cons, List.mem_cons] at mem
                    rcases mem with rfl | mem
                    · exact hid
                    · exact hids line' mem
                  · intro j hj
                    cases j with
                    | zero => exact hsends
                    | succ j =>
                        have hnext : sends (sent + 1 + j) = true := hsent j (by omega)
                        -- The sends behind this one are counted from the next answer on.
                        rwa [Nat.add_assoc, Nat.add_comm 1 j] at hnext
                · intro ⟨hlt, hids, hsent⟩
                  refine ⟨Nat.lt_of_succ_lt_succ hlt, ?_, ?_⟩
                  · intro line' mem
                    refine hids line' ?_
                    rw [List.take_succ_cons]
                    exact List.mem_cons_of_mem _ mem
                  · intro j hj
                    have hnext : sends (sent + (j + 1)) = true := hsent (j + 1) (by omega)
                    rwa [Nat.add_comm j 1, ← Nat.add_assoc] at hnext
              · rw [if_neg hsends]
                constructor
                · intro h
                  cases h
                · intro h
                  exact absurd (h.2.2 0 (Nat.succ_pos i)) hsends

theorem hook_of_respond {id : Nat} {request : PermissionRequest}
    (hallow : (respond hook asked id (some request)).result = .allow) :
    hook asked request = .returned true := by
  have hallows : (hook asked request).allows = true := by
    change (if (hook asked request).allows = true then BrokerResult.allow else .deny) =
      .allow at hallow
    split_ifs at hallow with hallows
    exact hallows
  cases hout : hook asked request with
  | returned allow =>
      rw [hout] at hallows
      exact congrArg HookOutcome.returned hallows
  | panicked =>
      rw [hout] at hallows
      cases hallows

/-- Only a whole line that decodes can be allowed, and only by the hook. -/
theorem respond_allow {line : List UInt8} {id : Nat} {request : Option PermissionRequest}
    (hanswer : answerOf decoder (brokerLine reader line) = some (id, request))
    (hallow : (respond hook asked id request).result = .allow) :
    line.length ≤ maxBrokerLineBytes ∧
    ∃ decoded, decoder.fromSlice line = some decoded ∧
      hook asked ⟨decoded.permission, decoded.value⟩ = .returned true := by
  cases request with
  | none => cases hallow
  | some request =>
      have hhook := hook_of_respond hallow
      rw [brokerLine] at hanswer
      by_cases hlong : maxBrokerLineBytes < line.length
      · rw [if_pos hlong] at hanswer
        cases hid : brokerRequestId reader (line.take (maxBrokerLineBytes + 1)) true with
        | none =>
            rw [hid] at hanswer
            cases hanswer
        | some n =>
            rw [hid] at hanswer
            cases hanswer
      · rw [if_neg hlong, answerOf] at hanswer
        cases hdecode : decoder.fromSlice line with
        | some decoded =>
            rw [hdecode] at hanswer
            injection hanswer with hanswer
            injection hanswer with _ hrequest
            injection hrequest with hrequest
            exact ⟨by omega, decoded, rfl, hrequest ▸ hhook⟩
        | none =>
            rw [hdecode] at hanswer
            obtain ⟨n, -, heq⟩ := Option.map_eq_some_iff.mp hanswer
            injection heq with _ heq
            cases heq

/-- The id of an object's answer is its own, unless the object was cut inside it. -/
theorem lineId_own {line : List UInt8} {id : Nat} (object : SingleId reader line)
    (hid : lineId decoder line = some id) :
    ownId reader line = some id ↔
      ¬ (maxBrokerLineBytes < line.length ∧ CutInId reader line) := by
  obtain ⟨found, whole, hsingle⟩ := object
  rw [lineId, brokerLine] at hid
  by_cases hlong : maxBrokerLineBytes < line.length
  · rw [if_pos hlong] at hid
    have hrecovered :
        brokerRequestId reader (line.take (maxBrokerLineBytes + 1)) true = some id := by
      cases hid' : brokerRequestId reader (line.take (maxBrokerLineBytes + 1)) true with
      | none =>
          rw [hid'] at hid
          cases hid
      | some n =>
          rw [hid'] at hid
          exact hid
    have hown := own_iff_not_cut ⟨found, whole, hsingle⟩
    rw [hrecovered] at hown
    constructor
    · rintro h ⟨-, hcut⟩
      exact hown.mp (.inr h.symm) hcut
    · intro h
      rcases hown.mpr fun hcut => h ⟨hlong, hcut⟩ with heq | heq
      · cases heq
      · exact heq.symm
  · rw [if_neg hlong, answerOf] at hid
    have hown : ownId reader line = some id := by
      cases hdecode : decoder.fromSlice line with
      | some decoded =>
          rw [hdecode] at hid
          rw [decoder.fromSlice_id hdecode (by rw [whole]; rfl)]
          exact hid
      | none =>
          rw [hdecode] at hid
          simp only [Option.map_map, Function.comp_def, Option.map_id'] at hid
          have hwhole : objectMembers reader (line ++ []) = some found := by
            rw [List.append_nil]
            exact whole
          rcases ownId_of_brokerRequestId hid hwhole with hown |
            ⟨_, _, _, _, _, b, more, hnil, _⟩
          · rwa [List.append_nil] at hown
          · cases hnil
    constructor
    · intro _ h
      exact hlong h.1
    · intro _
      exact hown

/-- **The connection fails closed**, for every stream and chunking, every hook and whichever
writes fail. The responses answer the lines in order, up to the first line that has no id;
each is about its line, and allows only a whole line that decodes and that the hook allowed.
Its id is the line's own exactly where no answered line was cut inside its id. -/
theorem connection_fails_closed (decoder : RequestDecoder reader) (hook : PermissionPrompt)
    (sends : Nat → Bool) (fills : List Fill) :
    let lines := requestLines (received fills)
    let responses := serveBrokerConnection decoder hook sends fills
    (∀ i, i < responses.length ↔ Answered decoder sends lines i) ∧
    (∀ (i : Nat) response line, responses[i]? = some response → lines[i]? = some line →
      lineId decoder line = some response.id ∧
      (response.result = .allow → line.length ≤ maxBrokerLineBytes ∧
        ∃ request, decoder.fromSlice line = some request ∧
          hook (consulted decoder (lines.take i)) ⟨request.permission, request.value⟩ =
            .returned true)) ∧
    ((∀ (i : Nat) response line, responses[i]? = some response → lines[i]? = some line →
        SingleId reader line → ownId reader line = some response.id) ↔
      ∀ i line, Answered decoder sends lines i → lines[i]? = some line →
        SingleId reader line → ¬ (maxBrokerLineBytes < line.length ∧ CutInId reader line)) := by
  intro lines responses
  have hresponses : responses = answers decoder hook sends [] 0 lines :=
    serveFrom_eq_answers fills
  have hlength : ∀ i, i < responses.length ↔ Answered decoder sends lines i := by
    intro i
    rw [hresponses, lt_length_answers]
    simp only [Nat.zero_add]
  have hget : ∀ (i : Nat) response line, responses[i]? = some response →
      lines[i]? = some line → ∃ request,
        answerOf decoder (brokerLine reader line) = some (response.id, request) ∧
        response = respond hook (consulted decoder (lines.take i)) response.id request := by
    intro i response line hi hline
    rw [hresponses] at hi
    obtain ⟨line', id, request, hline', hanswer, hresponse⟩ := answers_get hi
    obtain rfl := Option.some.inj (hline.symm.trans hline')
    rw [List.nil_append] at hresponse
    have hid : response.id = id := by rw [hresponse]; rfl
    exact ⟨request, by rw [hid]; exact hanswer, by rw [hid]; exact hresponse⟩
  have hid : ∀ (i : Nat) response line, responses[i]? = some response →
      lines[i]? = some line → lineId decoder line = some response.id := by
    intro i response line hi hline
    obtain ⟨request, hanswer, -⟩ := hget i response line hi hline
    rw [lineId, hanswer]
    rfl
  refine ⟨hlength, ?_, ?_⟩
  · intro i response line hi hline
    refine ⟨hid i response line hi hline, ?_⟩
    intro hallow
    obtain ⟨request, hanswer, hresponse⟩ := hget i response line hi hline
    rw [hresponse] at hallow
    exact respond_allow hanswer hallow
  · constructor
    · intro h i line hanswered hline object
      have hlt := (hlength i).mpr hanswered
      have hi := List.getElem?_eq_getElem hlt
      exact (lineId_own object (hid i _ line hi hline)).mp (h i _ line hi hline object)
    · intro h i response line hi hline object
      have hlt : i < responses.length := (List.getElem?_eq_some_iff.mp hi).1
      exact (lineId_own object (hid i response line hi hline)).mpr
        (h i line ((hlength i).mp hlt) hline object)

/-! ### A decoder -/

/-- What follows the only member of that name. -/
def fieldText (found : List (List Char × List UInt8)) (name : List Char) :
    Option (List UInt8) :=
  match found.filter fun m => m.1 = name with
  | [m] => some m.2
  | _ => none

/-- A field that is an unsigned number. -/
def numberField (found : List (List Char × List UInt8)) (name : List Char) : Option Nat :=
  (fieldText found name).bind fun text =>
    match mapReader.nextU32 text with
    | .ok n _ => some n
    | .eof | .bad => none

/-- A text in quotes. -/
def quotedText (text : List UInt8) : Option (List Char) :=
  match afterSeparator text with
  | b :: rest =>
      if b = byte '"' then
        match keyMachine.run (.quoted .plain []) rest with
        | .ok value _ => value
        | .eof | .bad => none
      else none
  | [] => none

def textField (found : List (List Char × List UInt8)) (name : List Char) :
    Option (List Char) :=
  (fieldText found name).bind quotedText

/-- A field that may be missing or null. -/
def optionField (found : List (List Char × List UInt8)) (name : List Char) :
    Option (Option (List Char)) :=
  match found.filter fun m => m.1 = name with
  | [] => some none
  | [m] =>
      if Text.ascii "null" <+: afterSeparator m.2 then some none
      else (quotedText m.2).map some
  | _ => none

/-- The decoder of requests that are objects; unknown members are ignored. -/
def fromObject (line : List UInt8) : Option BrokerRequest := do
  let found ← objectMembers mapReader line
  let v ← numberField found "v".toList
  let pid ← numberField found "pid".toList
  let id ← numberField found idKey
  let datetime ← textField found "datetime".toList
  let permission ← textField found "permission".toList
  let value ← optionField found "value".toList
  some { v := v, pid := pid, id := id, datetime := datetime, permission := permission,
         value := value }

theorem numberField_idKey {found : List (List Char × List UInt8)} {line : List UInt8} {n : Nat}
    (whole : objectMembers mapReader line = some found)
    (h : numberField found idKey = some n) : ownId mapReader line = some n := by
  obtain ⟨text, htext, hnumber⟩ := Option.bind_eq_some_iff.mp h
  rw [fieldText] at htext
  split at htext
  · rename_i m hfilter
    have hfind : found.find? (fun m => m.1 = idKey) = some m := by
      rw [← List.head?_filter, hfilter]
      rfl
    rw [ownId, whole, Option.bind_some, hfind, Option.bind_some, Option.some.inj htext]
    exact hnumber
  · cases htext

def mapDecoder : RequestDecoder mapReader where
  fromSlice := fromObject
  fromSlice_id := by
    intro line request h _
    obtain ⟨found, whole, h⟩ := Option.bind_eq_some_iff.mp h
    obtain ⟨v, -, h⟩ := Option.bind_eq_some_iff.mp h
    obtain ⟨pid, -, h⟩ := Option.bind_eq_some_iff.mp h
    obtain ⟨id, hid, h⟩ := Option.bind_eq_some_iff.mp h
    obtain ⟨datetime, -, h⟩ := Option.bind_eq_some_iff.mp h
    obtain ⟨permission, -, h⟩ := Option.bind_eq_some_iff.mp h
    obtain ⟨value, -, h⟩ := Option.bind_eq_some_iff.mp h
    rw [numberField_idKey whole hid, ← Option.some.inj h]

theorem requestLines_sampleLine (k : Nat) :
    requestLines (received [.bytes (sampleLine k)]) = [sampleLine k] := by
  obtain ⟨text, hline, single⟩ := sampleLine_isLine k
  have hne : sampleLine k ≠ [] := List.cons_ne_nil _ _
  rw [received, if_neg hne, received, List.append_nil, hline, requestLines_line single]
  rfl

theorem serve_sampleLine {k : Nat} (hk : k + 14 = maxBrokerLineBytes) :
    serveBrokerConnection mapDecoder (fun _ _ => .returned true) (fun _ => true)
      [.bytes (sampleLine k)] = [{ id := 12, result := .deny, reason := none }] := by
  have hlong : maxBrokerLineBytes < (sampleLine k).length := by
    rw [length_sampleLine]
    omega
  rw [serveBrokerConnection, serveFrom_eq_answers, requestLines_sampleLine, answers,
    brokerLine, if_pos hlong, brokerRequestId_sampleLine hk]
  rfl

/-- The line that is cut inside its id 1234 is answered as request 12. -/
theorem connection_wrong_id :
    requestLines (received [.bytes (sampleLine 65522)]) = [sampleLine 65522] ∧
      SingleId mapReader (sampleLine 65522) ∧
      ownId mapReader (sampleLine 65522) = some 1234 ∧
      serveBrokerConnection mapDecoder (fun _ _ => .returned true) (fun _ => true)
        [.bytes (sampleLine 65522)] = [{ id := 12, result := .deny, reason := none }] :=
  ⟨requestLines_sampleLine _, singleId_sampleLine _, ownId_sampleLine _,
    serve_sampleLine (by decide)⟩

end Libdeno.Broker
