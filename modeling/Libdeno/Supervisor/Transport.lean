import Libdeno.Io
import Libdeno.Library.Reader

/-!
# Libdeno.Supervisor.Transport

The two resumable loops under every frame: `read_until_with` fills a buffer and
`write_until` drains one, over system calls that move part of the bytes, are
interrupted, would block or fail.

The environment is a schedule. One turn of a loop reads the clock and the
cancellation flag, performs one system call and possibly reads clock and flag
again; the turn says what those reads and that call return. A loop whose schedule
is exhausted has not returned. The Unix variants of the loops are modelled, with
`poll` readiness on the write side; times are `Nat`, in any unit.
-/

namespace Libdeno.Supervisor

open Reader

/-- One look at the cancellation flag and the clock. -/
structure Observation where
  requested : Bool
  now : Nat
  deriving Repr, DecidableEq

/-- The `deadline` and `cancellation` arguments of the transport functions;
`watched` is `cancellation.is_some()`. -/
structure Conditions where
  deadline : Option Nat
  watched : Bool
  deriving Repr, DecidableEq

/-- `check_write_conditions`; the read loop repeats the same two tests inline. -/
def Conditions.check (conditions : Conditions) (seen : Observation) : Except IoError Unit :=
  if conditions.watched && seen.requested then
    .error { kind := .interrupted, message := "supervisor cancellation requested" }
  else if conditions.deadline.any (· ≤ seen.now) then
    .error { kind := .timedOut, message := "supervisor frame deadline exceeded" }
  else
    .ok ()

/-- The error kinds on which both loops go around again. -/
def ErrorKind.blocks (kind : ErrorKind) : Bool :=
  kind = .timedOut || kind = .wouldBlock

/-! ### Reading -/

/-- One turn of the read loop. The call hands over at most `count + 1` of the
bytes that are left (none only at the end of the stream), or fails. -/
structure ReadTurn where
  before : Observation
  /-- What `set_read_timeout` returns. -/
  prepared : Except IoError Unit
  outcome : Except IoError Nat
  after : Observation

/-- The readable end of a connection: the bytes still to come and the schedule. -/
abbrev Inbound := Wire UInt8 ReadTurn

/-- A read on a connection. -/
abbrev ReadIo := ReadM IoError UInt8 ReadTurn

/-- The loop of `read_until_with`, with `got` already in the buffer. -/
def readLoop (conditions : Conditions) (wanted : Nat) (got pending : List UInt8) :
    List ReadTurn → Option (Except IoError (List UInt8) × Inbound)
  | [] => if wanted ≤ got.length then some (.ok got, ⟨pending, []⟩) else none
  | turn :: turns =>
      if wanted ≤ got.length then
        some (.ok got, ⟨pending, turn :: turns⟩)
      else
        match conditions.check turn.before with
        | .error error => some (.error error, ⟨pending, turns⟩)
        | .ok () =>
        match turn.prepared with
        | .error error => some (.error error, ⟨pending, turns⟩)
        | .ok () =>
            match turn.outcome with
            | .ok count =>
                let chunk := pending.take (min (count + 1) (wanted - got.length))
                if chunk = [] then
                  some (.error { kind := .unexpectedEof, message := "truncated supervisor frame" },
                    ⟨pending, turns⟩)
                else
                  readLoop conditions wanted (got ++ chunk) (pending.drop chunk.length) turns
            | .error error =>
                if error.kind = .interrupted then
                  readLoop conditions wanted got pending turns
                else if ErrorKind.blocks error.kind then
                  match conditions.check turn.after with
                  | .error error => some (.error error, ⟨pending, turns⟩)
                  | .ok () => readLoop conditions wanted got pending turns
                else
                  some (.error error, ⟨pending, turns⟩)

/-- `read_until`: read exactly `wanted` bytes. -/
def readUntil (conditions : Conditions) (wanted : Nat) : ReadIo (List UInt8) :=
  fun wire => readLoop conditions wanted [] wire.pending wire.turns

theorem readUntil_on (conditions : Conditions) (wanted : Nat) (wire : Inbound) :
    (readUntil conditions wanted).on wire =
      readLoop conditions wanted [] wire.pending wire.turns := rfl

/-- The loop takes a prefix of the stream, never more than the buffer holds, and
a full buffer is what it had together with that prefix. -/
theorem readLoop_spec (conditions : Conditions) (wanted : Nat) (turns : List ReadTurn) :
    ∀ {got pending r wire'}, got.length ≤ wanted →
      readLoop conditions wanted got pending turns = some (r, wire') →
      ∃ taken, pending = taken ++ wire'.pending ∧ (got ++ taken).length ≤ wanted ∧
        ∀ bytes, r = .ok bytes → bytes = got ++ taken ∧ bytes.length = wanted := by
  induction turns with
  | nil =>
      intro got pending r wire' hgot h
      rw [readLoop] at h
      split at h
      · next hfull =>
        obtain ⟨rfl, rfl⟩ := by simpa using h
        refine ⟨[], by simp, by simpa using hgot, fun bytes hb => ?_⟩
        obtain rfl := Except.ok.inj hb
        exact ⟨by simp, by omega⟩
      · cases h
  | cons turn turns ih =>
      intro got pending r wire' hgot h
      rw [readLoop] at h
      split at h
      · next hfull =>
        obtain ⟨rfl, rfl⟩ := by simpa using h
        refine ⟨[], by simp, by simpa using hgot, fun bytes hb => ?_⟩
        obtain rfl := Except.ok.inj hb
        exact ⟨by simp, by omega⟩
      · next hroom =>
        -- Every exit with an error leaves the stream where it was.
        have stopped : ∀ {error : IoError}, some (Except.error error, (⟨pending, turns⟩ : Inbound)) =
            some (r, wire') → ∃ taken, pending = taken ++ wire'.pending ∧
              (got ++ taken).length ≤ wanted ∧
              ∀ bytes, r = .ok bytes → bytes = got ++ taken ∧ bytes.length = wanted := by
          intro error heq
          obtain ⟨rfl, rfl⟩ := by simpa using heq
          exact ⟨[], by simp, by simpa using hgot, fun bytes hb => by cases hb⟩
        split at h
        · exact stopped h
        split at h
        · exact stopped h
        · split at h
          · next count _ =>
            dsimp only at h
            split at h
            · exact stopped h
            · generalize hchunk :
                  pending.take (min (count + 1) (wanted - got.length)) = chunk at h
              have hlen : (got ++ chunk).length ≤ wanted := by
                rw [← hchunk, List.length_append, List.length_take]
                omega
              obtain ⟨taken, htaken, hle, hok⟩ := ih hlen h
              have hstart : pending.take chunk.length = chunk := by
                rw [← hchunk, List.length_take, List.take_eq_take_min]
                simp
              have hpending : chunk ++ pending.drop chunk.length = pending := by
                conv_rhs => rw [← List.take_append_drop chunk.length pending, hstart]
              refine ⟨chunk ++ taken, ?_, by simpa using hle, fun bytes hb => ?_⟩
              · rw [← hpending, htaken, List.append_assoc]
              · simpa using hok bytes hb
          · split at h
            · exact ih hgot h
            · split at h
              · split at h
                · exact stopped h
                · exact ih hgot h
              · exact stopped h

/-- `read_until` never takes more than it was asked for, and a full buffer is what
it took. -/
theorem readUntil_consumes (conditions : Conditions) (wanted : Nat) :
    Consumes (readUntil conditions wanted) fun taken r =>
      taken.length ≤ wanted ∧ ∀ bytes, r = .ok bytes → bytes = taken ∧ bytes.length = wanted := by
  intro wire r wire' h
  obtain ⟨taken, htaken, hle, hok⟩ := readLoop_spec conditions wanted _ (Nat.zero_le _) h
  exact ⟨taken, htaken, by simpa using hle, by simpa using hok⟩

/-- One field of a format read with `read_until`: what follows is judged with the
field's bytes in front of what it takes. -/
theorem consumes_field {α : Type} {conditions : Conditions} {wanted : Nat}
    {next : List UInt8 → ReadIo α} {R : List UInt8 → Except IoError α → Prop}
    (short : ∀ taken e, taken.length ≤ wanted → R taken (.error e))
    (full : ∀ bytes, bytes.length = wanted →
      Consumes (next bytes) fun more r => R (bytes ++ more) r) :
    Consumes (readUntil conditions wanted >>= next) R := by
  refine Consumes.bind (readUntil_consumes conditions wanted) ?_ ?_
  · intro taken e h
    exact short taken e h.1
  · intro taken bytes h
    obtain ⟨rfl, hlen⟩ := h.2 bytes rfl
    exact full _ hlen

/-- A turn on which the loop makes progress or goes around again: the deadline
has not passed, no cancellation is seen, and the call moves bytes, is interrupted
or would block. -/
def ReadTurn.Clean (conditions : Conditions) (turn : ReadTurn) : Prop :=
  conditions.check turn.before = .ok () ∧ turn.prepared = .ok () ∧
    conditions.check turn.after = .ok () ∧ ∀ error, turn.outcome = .error error →
      error.kind = .interrupted ∨ ErrorKind.blocks error.kind = true

/-- A turn on which the call moves bytes. -/
def ReadTurn.moving (turn : ReadTurn) : Bool :=
  turn.outcome matches .ok _

/-- The loop under a clean schedule, with all the bytes it wants at the front of
the stream. -/
theorem readLoop_delivers (conditions : Conditions) (wanted : Nat) (turns : List ReadTurn)
    (rest : List UInt8) :
    ∀ {got xs : List UInt8}, got.length + xs.length = wanted →
      (∀ turn ∈ turns, turn.Clean conditions) →
      (∀ r wire', readLoop conditions wanted got (xs ++ rest) turns = some (r, wire') →
        r = .ok (got ++ xs) ∧ wire'.pending = rest ∧ wire'.turns <:+ turns ∧
          turns.countP ReadTurn.moving ≤ wire'.turns.countP ReadTurn.moving + xs.length) ∧
      (xs.length ≤ turns.countP ReadTurn.moving →
        readLoop conditions wanted got (xs ++ rest) turns ≠ none) := by
  -- By induction on the turns; each takes some more of the bytes or none of them.
  induction turns with
  | nil =>
      intro got xs hwanted hclean
      rw [readLoop]
      split
      · next hfull =>
        obtain rfl : xs = [] := List.length_eq_zero_iff.mp (by omega)
        refine ⟨fun r wire' h => ?_, fun _ => by simp⟩
        obtain ⟨rfl, rfl⟩ := by simpa using h
        simp
      · next hroom =>
        refine ⟨fun r wire' h => (nomatch h), fun enough => ?_⟩
        simp only [List.countP_nil] at enough
        omega
  | cons turn turns ih =>
      intro got xs hwanted hclean
      obtain ⟨hturn, hturns⟩ := List.forall_mem_cons.mp hclean
      obtain ⟨hbefore, hprepared, hafter, herror⟩ := hturn
      rw [readLoop]
      split
      · next hfull =>
        obtain rfl : xs = [] := List.length_eq_zero_iff.mp (by omega)
        refine ⟨fun r wire' h => ?_, fun _ => by simp⟩
        obtain ⟨rfl, rfl⟩ := by simpa using h
        exact ⟨by simp, by simp, List.suffix_refl _, by simp⟩
      · next hroom =>
        rw [hbefore, hprepared]
        dsimp only
        split
        · next count hcount =>
          have hmoving : (turn :: turns).countP ReadTurn.moving =
              turns.countP ReadTurn.moving + 1 := by
            rw [List.countP_cons_of_pos (by simp [ReadTurn.moving, hcount])]
          -- The turn reads what it offers, but nothing beyond what is wanted.
          have hk : min (count + 1) (wanted - got.length) ≤ xs.length := by omega
          have hk0 : 0 < min (count + 1) (wanted - got.length) := by omega
          generalize min (count + 1) (wanted - got.length) = k at hk hk0
          have hchunk : (xs ++ rest).take k = xs.take k := List.take_append_of_le_length hk
          have hlen : (xs.take k).length = k := by rw [List.length_take]; omega
          have hne : xs.take k ≠ [] := by
            intro hnil
            rw [hnil, List.length_nil] at hlen
            omega
          rw [hchunk, if_neg hne, hlen, List.drop_append_of_le_length hk]
          have hsplit : xs.length = k + (xs.drop k).length := by rw [List.length_drop]; omega
          obtain ⟨answered, returns⟩ := @ih (got ++ xs.take k) (xs.drop k)
            (by rw [List.length_append, hlen]; omega) hturns
          refine ⟨fun r wire' h => ?_, fun enough => returns (by omega)⟩
          obtain ⟨hr, hrest, hsuffix, hle⟩ := answered r wire' h
          rw [List.append_assoc, List.take_append_drop] at hr
          exact ⟨hr, hrest, hsuffix.trans (List.suffix_cons _ _), by omega⟩
        · next error hout =>
          have hmoving : (turn :: turns).countP ReadTurn.moving =
              turns.countP ReadTurn.moving := by
            rw [List.countP_cons_of_neg (by simp [ReadTurn.moving, hout])]
          -- An error that is not an end: the loop goes on with what it had.
          have again : ∀ r wire', readLoop conditions wanted got (xs ++ rest) turns =
              some (r, wire') → r = .ok (got ++ xs) ∧ wire'.pending = rest ∧
                wire'.turns <:+ turn :: turns ∧
                turns.countP ReadTurn.moving ≤
                  wire'.turns.countP ReadTurn.moving + xs.length := by
            intro r wire' h
            obtain ⟨hr, hrest, hsuffix, hle⟩ := (ih hwanted hturns).1 r wire' h
            exact ⟨hr, hrest, hsuffix.trans (List.suffix_cons _ _), hle⟩
          rw [hmoving]
          by_cases hint : error.kind = .interrupted
          · rw [if_pos hint]
            exact ⟨again, (ih hwanted hturns).2⟩
          · have hblocks : ErrorKind.blocks error.kind = true :=
              (herror error hout).resolve_left hint
            rw [if_neg hint, if_pos hblocks, hafter]
            exact ⟨again, (ih hwanted hturns).2⟩

/-- Under a clean schedule `read_until` returns the next bytes of the stream,
however they are split. -/
theorem readUntil_delivers (conditions : Conditions) {wanted : Nat} {xs : List UInt8}
    (hlen : xs.length = wanted) :
    Delivers (ReadTurn.Clean conditions) ReadTurn.moving
      (readUntil conditions wanted) xs (.ok xs) := by
  intro turns rest hclean
  have spec := @readLoop_delivers conditions wanted turns rest [] xs
    (by simpa using hlen) hclean
  simp only [readUntil_on, List.nil_append] at spec ⊢
  exact spec

/-! ### Writing -/

/-- What one `poll` for writability comes to: the call fails, nothing happens
before its timeout, or it reports `POLLNVAL`, `POLLERR` or `POLLHUP` (with what
`SO_ERROR` then says), `POLLOUT`, or none of these. -/
inductive PollOutcome
  | failed (error : IoError)
  | idle
  | invalid
  | hangup (socketError : Except IoError (Option IoError))
  | writable
  | spurious

/-- One turn of `poll_writable`. -/
structure PollTurn where
  before : Observation
  outcome : PollOutcome

/-- `poll_writable`. -/
def pollWritable (conditions : Conditions) : List PollTurn → Option (Except IoError Unit)
  | [] => none
  | turn :: turns =>
      match conditions.check turn.before with
      | .error error => some (.error error)
      | .ok () =>
          match turn.outcome with
          | .failed error =>
              if error.kind = .interrupted then pollWritable conditions turns
              else some (.error error)
          | .idle => pollWritable conditions turns
          | .invalid => some (.error { kind := .other, message := "EBADF" })
          | .hangup (.error error) => some (.error error)
          | .hangup (.ok (some error)) => some (.error error)
          | .hangup (.ok none) =>
              some (.error { kind := .brokenPipe, message := "supervisor peer closed" })
          | .writable => some (.ok ())
          | .spurious => pollWritable conditions turns

/-- One turn of the write loop: `send` takes that many bytes or fails, and on
`WouldBlock` the loop polls. -/
structure SendTurn where
  before : Observation
  outcome : Except IoError Nat
  after : Observation
  polls : List PollTurn

/-- The schedule of one `write_until`: its turns and its last look at the
conditions. -/
structure SendSchedule where
  turns : List SendTurn
  final : Observation

/-- The loop of `write_until` over what is left to send, with the bytes it hands to
the network. -/
def writeLoop (conditions : Conditions) (final : Observation) :
    List SendTurn → List UInt8 → Option (Except IoError Unit × List UInt8)
  | [], bytes => if bytes = [] then some (conditions.check final, []) else none
  | turn :: turns, bytes =>
      if bytes = [] then
        some (conditions.check final, [])
      else
        match conditions.check turn.before with
        | .error error => some (.error error, [])
        | .ok () =>
            match turn.outcome with
            | .ok count =>
                if count = 0 then
                  some (.error
                    { kind := .writeZero, message := "failed to write supervisor frame" }, [])
                else
                  match conditions.check turn.after with
                  | .error error => some (.error error, bytes.take count)
                  | .ok () =>
                      match writeLoop conditions final turns (bytes.drop count) with
                      | none => none
                      | some (result, sent) => some (result, bytes.take count ++ sent)
            | .error error =>
                if error.kind = .interrupted then
                  writeLoop conditions final turns bytes
                else if error.kind = .wouldBlock then
                  match pollWritable conditions turn.polls with
                  | none => none
                  | some (.error error) => some (.error error, [])
                  | some (.ok ()) => writeLoop conditions final turns bytes
                else
                  some (.error error, [])

/-- `write_until`. -/
def writeUntil (conditions : Conditions) (schedule : SendSchedule) (bytes : List UInt8) :
    Option (Except IoError Unit × List UInt8) :=
  writeLoop conditions schedule.final schedule.turns bytes

/-- Whatever happens, the bytes handed over are a prefix of those to send, and all
of them after a success. -/
theorem writeLoop_spec (conditions : Conditions) (final : Observation) (turns : List SendTurn) :
    ∀ {bytes result sent}, writeLoop conditions final turns bytes = some (result, sent) →
      sent <+: bytes ∧ (result = .ok () → sent = bytes) := by
  induction turns with
  | nil =>
      intro bytes result sent h
      rw [writeLoop] at h
      split at h
      · next hdone =>
        obtain ⟨-, rfl⟩ := by simpa using h
        exact ⟨List.nil_prefix, fun _ => hdone.symm⟩
      · cases h
  | cons turn turns ih =>
      intro bytes result sent h
      -- An error that ends the loop before anything more is sent.
      have stopped : ∀ {error : IoError},
          some (Except.error (α := Unit) error, ([] : List UInt8)) = some (result, sent) →
          sent <+: bytes ∧ (result = .ok () → sent = bytes) := by
        intro error heq
        obtain ⟨rfl, rfl⟩ := by simpa using heq
        exact ⟨List.nil_prefix, fun hok => (nomatch hok)⟩
      rw [writeLoop] at h
      split at h
      · next hdone =>
        obtain ⟨-, rfl⟩ := by simpa using h
        exact ⟨List.nil_prefix, fun _ => hdone.symm⟩
      split at h
      · exact stopped h
      split at h
      · next count _ =>
        split at h
        · exact stopped h
        split at h
        · obtain ⟨rfl, rfl⟩ := by simpa using h
          exact ⟨List.take_prefix count bytes, fun hok => (nomatch hok)⟩
        split at h
        · cases h
        · next result' sent' hrest =>
          obtain ⟨rfl, rfl⟩ := by simpa using h
          obtain ⟨hstart, hall⟩ := ih hrest
          refine ⟨?_, fun hok => ?_⟩
          · conv_rhs => rw [← List.take_append_drop count bytes]
            exact (List.prefix_append_right_inj _).mpr hstart
          · rw [hall hok, List.take_append_drop]
      · split at h
        · exact ih h
        split at h
        · split at h
          · cases h
          · exact stopped h
          · exact ih h
        · exact stopped h

theorem writeUntil_spec {conditions : Conditions} {schedule : SendSchedule}
    {bytes sent : List UInt8} {result : Except IoError Unit}
    (h : writeUntil conditions schedule bytes = some (result, sent)) :
    sent <+: bytes ∧ (result = .ok () → sent = bytes) :=
  writeLoop_spec conditions schedule.final schedule.turns h

/-- A turn on which the write loop makes progress or goes around again. -/
def SendTurn.Clean (conditions : Conditions) (turn : SendTurn) : Prop :=
  conditions.check turn.before = .ok () ∧ conditions.check turn.after = .ok () ∧
    turn.outcome ≠ .ok 0 ∧
    ∀ error, turn.outcome = .error error → error.kind = .interrupted ∨
      error.kind = .wouldBlock ∧ pollWritable conditions turn.polls = some (.ok ())

/-- A turn on which `send` takes bytes. -/
def SendTurn.moving (turn : SendTurn) : Bool :=
  turn.outcome matches .ok _

/-- A schedule that lets `write_until` finish: clean turns, enough of them moving,
and the conditions still met at the end. -/
structure SendSchedule.Clean (conditions : Conditions) (schedule : SendSchedule)
    (bytes : List UInt8) : Prop where
  turns : ∀ turn ∈ schedule.turns, turn.Clean conditions
  enough : bytes.length ≤ schedule.turns.countP SendTurn.moving
  final : conditions.check schedule.final = .ok ()

theorem writeLoop_clean (conditions : Conditions) {final : Observation}
    (hfinal : conditions.check final = .ok ()) (turns : List SendTurn) :
    ∀ {bytes : List UInt8}, (∀ turn ∈ turns, turn.Clean conditions) →
      bytes.length ≤ turns.countP SendTurn.moving →
      writeLoop conditions final turns bytes = some (.ok (), bytes) := by
  induction turns with
  | nil =>
      intro bytes _ enough
      obtain rfl : bytes = [] := List.length_eq_zero_iff.mp (by simpa using enough)
      rw [writeLoop, if_pos rfl, hfinal]
  | cons turn turns ih =>
      intro bytes hclean enough
      obtain ⟨⟨hbefore, hafter, hzero, herror⟩, hturns⟩ := List.forall_mem_cons.mp hclean
      rw [writeLoop]
      by_cases hdone : bytes = []
      · rw [if_pos hdone, hfinal, hdone]
      rw [if_neg hdone, hbefore]
      dsimp only
      split
      · next count hcount =>
        have hpos : count ≠ 0 := by
          rintro rfl
          exact hzero hcount
        have hmoving : (turn :: turns).countP SendTurn.moving =
            turns.countP SendTurn.moving + 1 := by
          rw [List.countP_cons_of_pos (by simp [SendTurn.moving, hcount])]
        have hrest : (bytes.drop count).length ≤ turns.countP SendTurn.moving := by
          rw [List.length_drop]
          omega
        rw [if_neg hpos, hafter, ih hturns hrest]
        dsimp only
        rw [List.take_append_drop]
      · next error hout =>
        have hmoving : (turn :: turns).countP SendTurn.moving =
            turns.countP SendTurn.moving := by
          rw [List.countP_cons_of_neg (by simp [SendTurn.moving, hout])]
        rw [hmoving] at enough
        by_cases hint : error.kind = .interrupted
        · rw [if_pos hint]
          exact ih hturns enough
        · obtain ⟨hblock, hpoll⟩ := (herror error hout).resolve_left hint
          rw [if_neg hint, if_pos hblock, hpoll]
          exact ih hturns enough

theorem writeUntil_clean {conditions : Conditions} {schedule : SendSchedule}
    {bytes : List UInt8} (h : schedule.Clean conditions bytes) :
    writeUntil conditions schedule bytes = some (.ok (), bytes) :=
  writeLoop_clean conditions h.final schedule.turns h.turns h.enough

end Libdeno.Supervisor
