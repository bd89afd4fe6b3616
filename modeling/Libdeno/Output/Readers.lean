import Libdeno.Io
import Libdeno.Library.Relay

/-!
# Libdeno.Output.Readers

The two capture readers: `drain_pipe_to_channel` with its thread (subprocess.rs) and the reader
thread of `StreamCapture` (output.rs). Each waits for its pipe, reads a block, and sends what is
within the byte limit; the first counts what it retained, the second what it read. A reader is
stepped one pass of its loop at a time, with the store to the overflow flag and the last message
as steps of their own, so that the collector may run between any two of them. What the reader
sees of its collector (`Signals`) is an input of every step.

Both maintain `Relay.Relaying` (`DrainReader.Tracks`, `CaptureReader.Tracks`) for as long as
the collector is there.
-/

namespace Libdeno.Output

open Relay

/-- What a pass of a reader's loop meets: `wait_readable` fails, or the pipe is readable and
`read` returns. No bytes are the end of the file. -/
inductive Turn
  | waitFailed (error : IoError)
  | read (result : Except IoError (List UInt8))
  deriving Repr, DecidableEq

/-- The bytes a pipe delivers up to its end, or to an error a reader gives up on. -/
def Turn.input : List Turn → List UInt8
  | [] => []
  | .waitFailed _ :: _ => []
  | .read (.error error) :: rest => if error.kind = .interrupted then Turn.input rest else []
  | .read (.ok bytes) :: rest => if bytes = [] then [] else bytes ++ Turn.input rest

/-- What a reader sees of its collector in one pass: the stop flag in `wait_readable` and after
the read, and whether the receiver still exists. -/
structure Signals where
  stopWaiting : Bool
  stopReading : Bool
  connected : Bool
  deriving Repr, DecidableEq

/-- A collector that has not been dropped. -/
def Signals.live : Signals :=
  { stopWaiting := false, stopReading := false, connected := true }

/-! ### The subprocess reader -/

/-- `SubprocessOutputReaderMessage`. -/
inductive SubprocessOutputReaderMessage
  | data (block : List UInt8)
  | finished
  | failed (error : IoError)
  deriving Repr, DecidableEq

namespace SubprocessOutputReaderMessage

/-- The bytes a message carries. -/
def payload : SubprocessOutputReaderMessage → List UInt8
  | .data block => block
  | .finished | .failed _ => []

/-- The last message of a reader. -/
def ends : SubprocessOutputReaderMessage → Bool
  | .data _ => false
  | .finished | .failed _ => true

@[simp] theorem payload_data (block : List UInt8) : (data block).payload = block := rfl

@[simp] theorem ends_data (block : List UInt8) : (data block).ends = false := rfl

/-- What the thread sends when its loop has returned. -/
def ofResult : Except IoError Unit → SubprocessOutputReaderMessage
  | .ok () => .finished
  | .error error => .failed error

@[simp] theorem ofResult_payload (result : Except IoError Unit) :
    (ofResult result).payload = [] := by
  cases result <;> rfl

@[simp] theorem ofResult_ends (result : Except IoError Unit) : (ofResult result).ends = true := by
  cases result <;> rfl

end SubprocessOutputReaderMessage

/-- Where the reader thread of a subprocess stands. -/
inductive DrainPc
  | loop
  | raising
  | returned (result : Except IoError Unit)
  | ended
  deriving Repr, DecidableEq

/-- The reader thread, with the channel and the overflow flag it shares with the collector. -/
structure DrainReader where
  turns : List Turn
  retained : Nat
  discarding : Bool
  pc : DrainPc
  channel : Channel SubprocessOutputReaderMessage
  overflow : Bool
  deriving Repr, DecidableEq

namespace DrainReader

def new (turns : List Turn) : DrainReader :=
  { turns, retained := 0, discarding := false, pc := .loop, channel := .empty, overflow := false }

/-- The block just read: send the part there is room for. -/
def retain (max : Nat) (connected : Bool) (r : DrainReader) (bytes : List UInt8) : DrainReader :=
  let n := bytes.length
  let keep := min (max - r.retained) n
  if 0 < keep ∧ connected = false then { r with pc := .returned (.ok ()) }
  else
    let r := if 0 < keep then
      { r with channel := r.channel.push (.data (bytes.take keep)), retained := r.retained + keep }
      else r
    if keep < n then { r with pc := .raising } else r

/-- The rest of a pass of `drain_pipe_to_channel`, once `read` has returned. -/
def afterRead (max : Nat) (signals : Signals) (r : DrainReader) :
    Except IoError (List UInt8) → DrainReader
  | .error error =>
      if error.kind = .interrupted then r else { r with pc := .returned (.error error) }
  | .ok bytes =>
      if signals.stopReading then { r with pc := .returned (.ok ()) }
      else if bytes = [] then { r with pc := .returned (.ok ()) }
      else if r.discarding then r
      else r.retain max signals.connected bytes

/-- One pass of the loop of `drain_pipe_to_channel`; it blocks while the pipe is silent. -/
def pass (max : Nat) (signals : Signals) (r : DrainReader) : Option DrainReader :=
  if signals.stopWaiting then some { r with pc := .returned (.ok ()) }
  else
    match r.turns with
    | [] => none
    | .waitFailed error :: rest =>
        some { r with turns := rest, pc := .returned (.error error) }
    | .read result :: rest => some (afterRead max signals { r with turns := rest } result)

/-- One step of the reader thread. -/
def step (max : Nat) (signals : Signals) (r : DrainReader) : Option DrainReader :=
  match r.pc with
  | .loop => r.pass max signals
  | .raising => some { r with overflow := true, discarding := true, pc := .loop }
  | .returned result =>
      let message := SubprocessOutputReaderMessage.ofResult result
      let channel := if signals.connected then r.channel.push message else r.channel
      some { r with channel, pc := .ended }
  | .ended => none

theorem retain_delivered (max : Nat) (connected : Bool) (r : DrainReader) (bytes : List UInt8) :
    (r.retain max connected bytes).channel.delivered = r.channel.delivered := by
  simp only [retain]
  split
  · rfl
  · split <;> split <;> rfl

theorem afterRead_delivered (max : Nat) (signals : Signals) (r : DrainReader)
    (result : Except IoError (List UInt8)) :
    (r.afterRead max signals result).channel.delivered = r.channel.delivered := by
  cases result with
  | error error =>
      simp only [afterRead]
      split <;> rfl
  | ok bytes =>
      simp only [afterRead]
      split
      · rfl
      · split
        · rfl
        · split
          · rfl
          · exact retain_delivered max signals.connected r bytes

/-- The reader receives nothing itself. -/
theorem step_delivered {max : Nat} {signals : Signals} {r r' : DrainReader}
    (step : r.step max signals = some r') : r'.channel.delivered = r.channel.delivered := by
  unfold DrainReader.step at step
  split at step
  · unfold pass at step
    split at step
    · cases step
      rfl
    · split at step
      · cases step
      · cases step
        rfl
      · cases step
        exact afterRead_delivered max signals _ _
  · cases step
    rfl
  · cases step
    cases signals.connected <;> rfl
  · cases step

/-- The reader on its own, while its collector is there. -/
def run (max : Nat) : Nat → DrainReader → DrainReader
  | 0, r => r
  | n + 1, r =>
      match r.step max .live with
      | some r' => run max n r'
      | none => r

/-- What the reader will still read. -/
def ahead (r : DrainReader) : List UInt8 :=
  match r.pc with
  | .loop | .raising => Turn.input r.turns
  | .returned _ | .ended => []

/-- The bookkeeping of the reader against what it has read. -/
structure Books (max : Nat) (seen : List UInt8) (r : DrainReader) : Prop where
  retained : r.retained = min max seen.length
  crossing : r.pc = .raising → exceeds (some max) seen = true
  overflow : r.pc ≠ .raising → r.overflow = exceeds (some max) seen
  discarding : r.pc = .loop → r.discarding = exceeds (some max) seen

/-- The reader's last message is the last one on the channel, and there is no other. -/
def Closes (r : DrainReader) : Prop :=
  if r.pc = .ended then
    ∃ front last, r.channel.sent = front ++ [last] ∧ last.ends = true ∧
      ∀ m ∈ front, ¬ m.ends = true
  else ∀ m ∈ r.channel.sent, ¬ m.ends = true

/-- **What a reader maintains** while its collector is there, against the input it has not
read. -/
structure Tracks (max : Nat) (input ahead : List UInt8) (r : DrainReader) : Prop where
  relays : ∃ seen, Relaying SubprocessOutputReaderMessage.payload (some max) input seen ahead
    r.channel ∧ Books max seen r
  closes : r.Closes

theorem tracks_new (max : Nat) (turns : List Turn) :
    Tracks max (Turn.input turns) (new turns).ahead (new turns) where
  relays := by
    refine ⟨[], Relaying.start _ _ _, ?_⟩
    constructor <;> simp [new]
  closes := by simp [Closes, new]

section Live

variable {max : Nat} {input rest bytes : List UInt8} {r r' : DrainReader}

/-- Giving up where nothing is ahead. -/
theorem Tracks.return (h : Tracks max input rest r) (hpc : r.pc = .loop)
    (result : Except IoError Unit) :
    Tracks max input rest { r with pc := .returned result } := by
  obtain ⟨⟨seen, hrelay, hbooks⟩, hcloses⟩ := h
  refine ⟨⟨seen, hrelay, ⟨hbooks.retained, by simp, ?_, by simp⟩⟩, ?_⟩
  · intro _
    exact hbooks.overflow (by simp [hpc])
  · simpa [Closes, hpc] using hcloses

/-- Once something was dropped, everything is. -/
theorem Tracks.discard (h : Tracks max input (bytes ++ rest) r) (hpc : r.pc = .loop)
    (hd : r.discarding = true) : Tracks max input rest r := by
  obtain ⟨⟨seen, hrelay, hbooks⟩, hcloses⟩ := h
  have hfull : exceeds (some max) seen = true := by rw [← hbooks.discarding hpc, hd]
  have hfull' := exceeds_append hfull bytes
  have hlong : max < seen.length := by simpa [exceeds_some] using hfull
  refine ⟨⟨seen ++ bytes, hrelay.skip rfl (clip_append_of_exceeds hfull bytes), ?_⟩, hcloses⟩
  refine ⟨?_, by simp [hpc], ?_, ?_⟩
  · rw [hbooks.retained, List.length_append]
    omega
  · intro hne
    rw [hbooks.overflow hne, hfull, hfull']
  · intro _
    rw [hd, hfull']

/-- After the block was dealt with, the flag is raised next where something of it was lost. -/
theorem Tracks.of_kept (seen : List UInt8) (lost : Prop) [Decidable lost] (hpc : r.pc = .loop)
    (relay : Relaying SubprocessOutputReaderMessage.payload (some max) input seen rest r.channel)
    (retained : r.retained = min max seen.length) (flag : r.overflow = false)
    (hd : r.discarding = false) (unclosed : ∀ m ∈ r.channel.sent, ¬ m.ends = true)
    (hlost : lost ↔ max < seen.length) :
    Tracks max input rest (if lost then { r with pc := .raising } else r) := by
  by_cases h : lost
  · rw [if_pos h]
    refine ⟨⟨seen, relay, ⟨retained, ?_, by simp, by simp⟩⟩, by simpa [Closes] using unclosed⟩
    intro _
    simpa [exceeds_some] using hlost.mp h
  · rw [if_neg h]
    have hfits : exceeds (some max) seen = false := by simpa [exceeds_some] using mt hlost.mpr h
    refine ⟨⟨seen, relay, ⟨retained, by simp [hpc], ?_, ?_⟩⟩, by simpa [Closes, hpc] using unclosed⟩
    · intro _
      rw [flag, hfits]
    · intro _
      rw [hd, hfits]

/-- The block is sent as far as there is room, and the room shrinks by what was sent. -/
theorem Tracks.retain (h : Tracks max input (bytes ++ rest) r) (hpc : r.pc = .loop)
    (hd : r.discarding = false) :
    Tracks max input rest (r.retain max true bytes) := by
  obtain ⟨⟨seen, hrelay, hbooks⟩, hcloses⟩ := h
  have hfit : seen.length ≤ max := by
    have hbook := hbooks.discarding hpc
    simpa [hd, exceeds_some] using hbook.symm
  have hretained : r.retained = seen.length := by
    rw [hbooks.retained]
    omega
  have hflag : r.overflow = false := by
    rw [hbooks.overflow (by simp [hpc]), ← hbooks.discarding hpc, hd]
  have hopen : ∀ m ∈ r.channel.sent, ¬ m.ends = true := by simpa [Closes, hpc] using hcloses
  have hlength : (seen ++ bytes).length = seen.length + bytes.length := List.length_append
  have hclip := clip_append max seen bytes
  simp only [DrainReader.retain, hretained]
  by_cases hkeep : 0 < min (max - seen.length) bytes.length
  · -- the sent part is what is still within the limit
    rw [if_neg (show ¬ (0 < _ ∧ true = false) by simp), if_pos hkeep]
    refine Tracks.of_kept (seen ++ bytes) _ hpc ?_ ?_ hflag hd ?_ ?_
    · refine hrelay.send rfl ?_
      rw [hclip, SubprocessOutputReaderMessage.payload_data, ← List.take_eq_take_min]
    · show seen.length + min (max - seen.length) bytes.length = _
      omega
    · intro m hm
      rw [Channel.push_sent, List.mem_append, List.mem_singleton] at hm
      rcases hm with hm | rfl
      · exact hopen m hm
      · simp
    · omega
  · -- no room is left, or there was nothing to send
    rw [if_neg (show ¬ (0 < _ ∧ true = false) by simp), if_neg hkeep]
    refine Tracks.of_kept (seen ++ bytes) _ hpc ?_ ?_ hflag hd hopen ?_
    · refine hrelay.skip rfl ?_
      have hnone : bytes.take (max - seen.length) = [] := by
        rw [List.take_eq_take_min]
        simp [Nat.eq_zero_of_not_pos hkeep]
      rw [hclip, hnone, List.append_nil]
    · rw [hretained]
      omega
    · omega

/-- The store to the overflow flag. -/
theorem Tracks.raise (h : Tracks max input rest r) (hpc : r.pc = .raising) :
    Tracks max input rest { r with overflow := true, discarding := true, pc := .loop } := by
  obtain ⟨⟨seen, hrelay, hbooks⟩, hcloses⟩ := h
  have hfull := hbooks.crossing hpc
  refine ⟨⟨seen, hrelay, ⟨hbooks.retained, by simp, ?_, ?_⟩⟩, by simpa [Closes, hpc] using hcloses⟩
  · exact fun _ => hfull.symm
  · exact fun _ => hfull.symm

/-- The last message. -/
theorem Tracks.close (h : Tracks max input rest r) {result : Except IoError Unit}
    (hpc : r.pc = .returned result) :
    Tracks max input rest { r with
      channel := r.channel.push (.ofResult result), pc := .ended } := by
  obtain ⟨⟨seen, hrelay, hbooks⟩, hcloses⟩ := h
  have hopen : ∀ m ∈ r.channel.sent, ¬ m.ends = true := by simpa [Closes, hpc] using hcloses
  refine ⟨⟨seen, hrelay.mark (by simp), ⟨hbooks.retained, by simp, ?_, by simp⟩⟩, ?_⟩
  · intro _
    exact hbooks.overflow (by simp [hpc])
  · exact ⟨_, .ofResult result, Channel.push_sent _ _, by simp, hopen⟩

/-- Reading does not change what was read before. -/
theorem Tracks.turns (h : Tracks max input rest r) (turns : List Turn) :
    Tracks max input rest { r with turns } := by
  obtain ⟨⟨seen, hrelay, hbooks⟩, hcloses⟩ := h
  exact ⟨⟨seen, hrelay, ⟨hbooks.retained, hbooks.crossing, hbooks.overflow, hbooks.discarding⟩⟩,
    hcloses⟩

theorem ahead_of_loop (hpc : r.pc = .loop) : r.ahead = Turn.input r.turns := by
  simp [ahead, hpc]

/-- A reader that could send goes on reading. -/
theorem retain_ahead (hpc : r.pc = .loop) :
    (r.retain max true bytes).ahead = Turn.input r.turns := by
  simp only [DrainReader.retain]
  rw [if_neg (show ¬ (0 < _ ∧ true = false) by simp)]
  split <;> split <;> simp [ahead, hpc]

/-- A pass of the loop, once `read` has returned. -/
theorem Tracks.afterRead {result : Except IoError (List UInt8)}
    (h : Tracks max input (Turn.input (.read result :: r.turns)) r) (hpc : r.pc = .loop) :
    Tracks max input (r.afterRead max .live result).ahead (r.afterRead max .live result) := by
  cases result with
  | error error =>
      by_cases hkind : error.kind = .interrupted
      · simpa [DrainReader.afterRead, Turn.input, hkind, ahead_of_loop hpc] using h
      · simpa [DrainReader.afterRead, Turn.input, hkind, ahead] using h.return hpc (.error error)
  | ok bytes =>
      by_cases hend : bytes = []
      · simpa [DrainReader.afterRead, Turn.input, hend, ahead, Signals.live]
          using h.return hpc (.ok ())
      · have hpiece : Tracks max input (bytes ++ Turn.input r.turns) r := by
          simpa [Turn.input, hend] using h
        cases hd : r.discarding with
        | true =>
            simpa [DrainReader.afterRead, hend, Signals.live, hd, ahead_of_loop hpc]
              using hpiece.discard hpc hd
        | false =>
            simpa [DrainReader.afterRead, hend, Signals.live, hd, retain_ahead hpc]
              using hpiece.retain hpc hd

theorem Tracks.pass (h : Tracks max input (Turn.input r.turns) r) (hpc : r.pc = .loop)
    (pass : r.pass max .live = some r') : Tracks max input r'.ahead r' := by
  have hwaiting : Signals.live.stopWaiting = false := rfl
  simp only [DrainReader.pass, hwaiting, Bool.false_eq_true, if_false] at pass
  cases hturns : r.turns with
  | nil => simp [hturns] at pass
  | cons turn rest =>
      rw [hturns] at h
      have hrest : Tracks max input (Turn.input (turn :: rest)) { r with turns := rest } :=
        h.turns rest
      cases turn with
      | waitFailed error =>
          simp only [hturns, Option.some.injEq] at pass
          subst pass
          exact hrest.return hpc (.error error)
      | read result =>
          simp only [hturns, Option.some.injEq] at pass
          subst pass
          exact Tracks.afterRead (r := { r with turns := rest }) hrest hpc

/-- **A step keeps what the reader maintains**, as long as its collector is there. -/
theorem Tracks.step (h : Tracks max input r.ahead r) (step : r.step max .live = some r') :
    Tracks max input r'.ahead r' := by
  cases hpc : r.pc with
  | loop =>
      rw [ahead_of_loop hpc] at h
      exact h.pass hpc (by simpa only [DrainReader.step, hpc] using step)
  | raising =>
      simp only [DrainReader.step, hpc, Option.some.injEq] at step
      subst step
      have hahead : r.ahead = Turn.input r.turns := by simp [ahead, hpc]
      rw [hahead] at h
      exact h.raise hpc
  | returned result =>
      have hconnected : Signals.live.connected = true := rfl
      simp only [DrainReader.step, hpc, hconnected, if_true, Option.some.injEq] at step
      subst step
      have hahead : r.ahead = [] := by simp [ahead, hpc]
      rw [hahead] at h
      exact h.close hpc
  | ended => simp [DrainReader.step, hpc] at step

/-- Receiving changes nothing for the reader. -/
theorem Tracks.receive {channel : Channel SubprocessOutputReaderMessage}
    (h : Tracks max input rest r) (sent : channel.sent = r.channel.sent) :
    Tracks max input rest { r with channel } := by
  obtain ⟨⟨seen, hrelay, hbooks⟩, hcloses⟩ := h
  refine ⟨⟨seen, hrelay.receive sent, ⟨hbooks.retained, hbooks.crossing, hbooks.overflow,
    hbooks.discarding⟩⟩, ?_⟩
  simpa [Closes, sent] using hcloses

/-- Who received the last message has received the retained input, and the flag is final. -/
theorem Tracks.complete (h : Tracks max input r.ahead r)
    (last : ∃ m ∈ r.channel.delivered, m.ends = true) :
    r.pc = .ended ∧ r.channel.inFlight = [] ∧
      r.channel.delivered.flatMap SubprocessOutputReaderMessage.payload = clip (some max) input ∧
      r.overflow = exceeds (some max) input := by
  obtain ⟨⟨seen, hrelay, hbooks⟩, hcloses⟩ := h
  have hended : r.pc = .ended := by
    by_contra hne
    rw [Closes, if_neg hne] at hcloses
    obtain ⟨m, hm, hends⟩ := last
    exact hcloses m (r.channel.delivered_prefix.subset hm) hends
  rw [Closes, if_pos hended] at hcloses
  obtain ⟨front, message, hsent, -, honly⟩ := hcloses
  have hall := delivered_of_last hsent honly last
  have hahead : r.ahead = [] := by simp [ahead, hended]
  rw [hahead] at hrelay
  obtain ⟨hcarried, rfl⟩ := hrelay.carried_input
  refine ⟨hended, ?_, by rw [hall, hcarried], hbooks.overflow (by simp [hended])⟩
  simpa [Channel.sent] using hall

/-- A reader that has ended has its last message on the channel. -/
theorem Tracks.last (h : Tracks max input rest r) (hended : r.pc = .ended) :
    ∃ m ∈ r.channel.sent, m.ends = true := by
  have hcloses := h.closes
  rw [Closes, if_pos hended] at hcloses
  obtain ⟨front, message, hsent, hends, -⟩ := hcloses
  exact ⟨message, by simp [hsent], hends⟩

end Live

end DrainReader

/-! ### The in-process reader -/

/-- Where the reader thread of a `StreamCapture` stands. -/
inductive CapturePc
  | loop
  | raising
  | finishing (readError : Option IoError)
  | ended
  deriving Repr, DecidableEq

/-- The bytes a message of the in-process reader carries. -/
def captured : Except IoError (List UInt8) → List UInt8
  | .ok block => block
  | .error _ => []

@[simp] theorem captured_ok (block : List UInt8) : captured (.ok block) = block := rfl

/-- The reader thread, with the channel and the overflow flag it shares with the collector. -/
structure CaptureReader where
  turns : List Turn
  total : Nat
  discarding : Bool
  pc : CapturePc
  channel : Channel (Except IoError (List UInt8))
  overflow : Bool
  deriving Repr, DecidableEq

namespace CaptureReader

def new (turns : List Turn) : CaptureReader :=
  { turns, total := 0, discarding := false, pc := .loop, channel := .empty, overflow := false }

/-- `tx.send(Ok(block))`: a receiver that gave up ends the loop. -/
def send (connected : Bool) (r : CaptureReader) (block : List UInt8) : CaptureReader :=
  if connected then { r with channel := r.channel.push (.ok block) }
  else { r with pc := .finishing none }

/-- The block just read: on the block that crosses the cap, send the part that fits. -/
def count (maxBytes : Option Nat) (connected : Bool) (r : CaptureReader) (bytes : List UInt8) :
    CaptureReader :=
  let n := bytes.length
  let r := { r with total := r.total + n }
  match maxBytes with
  | none => r.send connected bytes
  | some max =>
      if r.total > max then
        let excess := r.total - max
        let keep := n - excess
        if 0 < keep ∧ connected = false then { r with pc := .finishing none }
        else
          { r with
            channel := if 0 < keep then r.channel.push (.ok (bytes.take keep)) else r.channel
            pc := .raising }
      else r.send connected bytes

/-- The rest of a pass of the loop, once `read` has returned. -/
def afterRead (maxBytes : Option Nat) (signals : Signals) (r : CaptureReader)
    (result : Except IoError (List UInt8)) : CaptureReader :=
  if signals.stopReading then { r with pc := .finishing none }
  else
    match result with
    | .error error =>
        if error.kind = .interrupted then r else { r with pc := .finishing (some error) }
    | .ok bytes =>
        if bytes = [] then { r with pc := .finishing none }
        else if r.discarding then r
        else r.count maxBytes signals.connected bytes

/-- One pass of the reader's loop; it blocks while the pipe is silent. -/
def pass (maxBytes : Option Nat) (signals : Signals) (r : CaptureReader) :
    Option CaptureReader :=
  if signals.stopWaiting then some { r with pc := .finishing none }
  else
    match r.turns with
    | [] => none
    | .waitFailed error :: rest =>
        some { r with turns := rest, pc := .finishing (some error) }
    | .read result :: rest => some (afterRead maxBytes signals { r with turns := rest } result)

/-- One step of the reader thread. -/
def step (maxBytes : Option Nat) (signals : Signals) (r : CaptureReader) :
    Option CaptureReader :=
  match r.pc with
  | .loop => r.pass maxBytes signals
  | .raising => some { r with overflow := true, discarding := true, pc := .loop }
  | .finishing readError =>
      let channel := match readError with
        | some error => if signals.connected then r.channel.push (.error error) else r.channel
        | none => r.channel
      some { r with channel, pc := .ended }
  | .ended => none

theorem send_delivered (connected : Bool) (r : CaptureReader) (block : List UInt8) :
    (r.send connected block).channel.delivered = r.channel.delivered := by
  cases connected <;> rfl

theorem count_delivered (maxBytes : Option Nat) (connected : Bool) (r : CaptureReader)
    (bytes : List UInt8) :
    (r.count maxBytes connected bytes).channel.delivered = r.channel.delivered := by
  cases maxBytes with
  | none => exact send_delivered connected _ bytes
  | some max =>
      simp only [count]
      split
      · split
        · rfl
        · split <;> rfl
      · exact send_delivered connected _ bytes

theorem afterRead_delivered (maxBytes : Option Nat) (signals : Signals) (r : CaptureReader)
    (result : Except IoError (List UInt8)) :
    (r.afterRead maxBytes signals result).channel.delivered = r.channel.delivered := by
  unfold afterRead
  split
  · rfl
  · cases result with
    | error error =>
        simp only
        split <;> rfl
    | ok bytes =>
        simp only
        split
        · rfl
        · split
          · rfl
          · exact count_delivered maxBytes signals.connected r bytes

/-- The reader receives nothing itself. -/
theorem step_delivered {maxBytes : Option Nat} {signals : Signals} {r r' : CaptureReader}
    (step : r.step maxBytes signals = some r') :
    r'.channel.delivered = r.channel.delivered := by
  unfold CaptureReader.step at step
  split at step
  · unfold pass at step
    split at step
    · cases step
      rfl
    · split at step
      · cases step
      · cases step
        rfl
      · cases step
        exact afterRead_delivered maxBytes signals _ _
  · cases step
    rfl
  · next readError _ =>
    cases step
    cases readError with
    | none => rfl
    | some error => cases signals.connected <;> rfl
  · cases step

/-- The reader on its own, while its collector is there. -/
def run (maxBytes : Option Nat) : Nat → CaptureReader → CaptureReader
  | 0, r => r
  | n + 1, r =>
      match r.step maxBytes .live with
      | some r' => run maxBytes n r'
      | none => r

/-- What the reader will still read. -/
def ahead (r : CaptureReader) : List UInt8 :=
  match r.pc with
  | .loop | .raising => Turn.input r.turns
  | .finishing _ | .ended => []

/-- The bookkeeping of the reader against what it has read. -/
structure Books (limit : Option Nat) (seen : List UInt8) (r : CaptureReader) : Prop where
  total : r.pc = .loop → r.discarding = false → r.total = seen.length
  crossing : r.pc = .raising → exceeds limit seen = true
  overflow : r.pc ≠ .raising → r.overflow = exceeds limit seen
  discarding : r.pc = .loop → r.discarding = exceeds limit seen

/-- **What a reader maintains** while its collector is there, against the input it has not
read. -/
def Tracks (limit : Option Nat) (input ahead : List UInt8) (r : CaptureReader) : Prop :=
  ∃ seen, Relaying captured limit input seen ahead r.channel ∧ Books limit seen r

theorem tracks_new (limit : Option Nat) (turns : List Turn) :
    Tracks limit (Turn.input turns) (new turns).ahead (new turns) := by
  refine ⟨[], Relaying.start _ _ _, ?_⟩
  constructor <;> simp [new]

section Live

variable {limit : Option Nat} {input rest bytes : List UInt8} {r r' : CaptureReader}

/-- Giving up where nothing is ahead. -/
theorem Tracks.finish (h : Tracks limit input rest r) (hpc : r.pc = .loop)
    (readError : Option IoError) :
    Tracks limit input rest { r with pc := .finishing readError } := by
  obtain ⟨seen, hrelay, hbooks⟩ := h
  refine ⟨seen, hrelay, ⟨by simp, by simp, ?_, by simp⟩⟩
  intro _
  exact hbooks.overflow (by simp [hpc])

/-- Once something was dropped, everything is. -/
theorem Tracks.discard (h : Tracks limit input (bytes ++ rest) r) (hpc : r.pc = .loop)
    (hd : r.discarding = true) : Tracks limit input rest r := by
  obtain ⟨seen, hrelay, hbooks⟩ := h
  have hfull : exceeds limit seen = true := by rw [← hbooks.discarding hpc, hd]
  have hfull' := exceeds_append hfull bytes
  refine ⟨seen ++ bytes, hrelay.skip rfl (clip_append_of_exceeds hfull bytes), ?_⟩
  refine ⟨by simp [hd], by simp [hpc], ?_, ?_⟩
  · intro hne
    rw [hbooks.overflow hne, hfull, hfull']
  · intro _
    rw [hd, hfull']

/-- A block that fits is sent whole. -/
theorem Tracks.send (h : Tracks limit input (bytes ++ rest) r) (hpc : r.pc = .loop)
    (hd : r.discarding = false)
    (fits : ∀ seen : List UInt8, r.total = seen.length → exceeds limit (seen ++ bytes) = false) :
    Tracks limit input rest
      (CaptureReader.send true { r with total := r.total + bytes.length } bytes) := by
  obtain ⟨seen, hrelay, hbooks⟩ := h
  have htotal := hbooks.total hpc hd
  have hfits := fits seen htotal
  have hflag : r.overflow = false := by
    rw [hbooks.overflow (by simp [hpc]), ← hbooks.discarding hpc, hd]
  refine ⟨seen ++ bytes, hrelay.send rfl (clip_append_of_fits hfits), ?_⟩
  refine ⟨?_, by simp [CaptureReader.send, hpc], ?_, ?_⟩
  · intro _ _
    show r.total + bytes.length = _
    rw [htotal, List.length_append]
  · intro _
    exact hflag.trans hfits.symm
  · intro _
    exact hd.trans hfits.symm

/-- The block that crosses the limit is sent up to it. -/
theorem Tracks.count (h : Tracks limit input (bytes ++ rest) r) (hpc : r.pc = .loop)
    (hd : r.discarding = false) : Tracks limit input rest (r.count limit true bytes) := by
  cases limit with
  | none => exact h.send hpc hd fun _ _ => rfl
  | some max =>
      simp only [CaptureReader.count]
      by_cases hover : r.total + bytes.length > max
      · rw [if_pos hover, if_neg (show ¬ (0 < _ ∧ true = false) by simp)]
        obtain ⟨seen, hrelay, hbooks⟩ := h
        have htotal := hbooks.total hpc hd
        have hfit : seen.length ≤ max := by
          have hbook := hbooks.discarding hpc
          simpa [hd, exceeds_some] using hbook.symm
        have hkeep : bytes.length - (r.total + bytes.length - max) = max - seen.length := by
          omega
        have hclip := clip_append max seen bytes
        refine ⟨seen ++ bytes, ?_, ⟨by simp, ?_, by simp, by simp⟩⟩
        · rw [hkeep]
          by_cases hroom : 0 < max - seen.length
          · rw [if_pos hroom]
            exact hrelay.send rfl (by rw [hclip, captured_ok])
          · -- the limit was met exactly before this block
            rw [if_neg hroom]
            refine hrelay.skip rfl ?_
            rw [hclip, Nat.eq_zero_of_not_pos hroom, List.take_zero, List.append_nil]
        · intro _
          rw [exceeds_some, List.length_append]
          simp
          omega
      · rw [if_neg hover]
        refine h.send hpc hd fun seen htotal => ?_
        rw [exceeds_some, List.length_append]
        simp
        omega

/-- The store to the overflow flag. -/
theorem Tracks.raise (h : Tracks limit input rest r) (hpc : r.pc = .raising) :
    Tracks limit input rest { r with overflow := true, discarding := true, pc := .loop } := by
  obtain ⟨seen, hrelay, hbooks⟩ := h
  have hfull := hbooks.crossing hpc
  exact ⟨seen, hrelay, ⟨by simp, by simp, fun _ => hfull.symm, fun _ => hfull.symm⟩⟩

/-- The thread ends, with its error if it has one. -/
theorem Tracks.close (h : Tracks limit input rest r) {readError : Option IoError}
    (hpc : r.pc = .finishing readError) (step : r.step limit .live = some r') :
    Tracks limit input rest r' ∧ r'.pc = .ended := by
  obtain ⟨seen, hrelay, hbooks⟩ := h
  simp only [CaptureReader.step, hpc, Option.some.injEq] at step
  subst step
  refine ⟨⟨seen, ?_, ⟨by simp, by simp, ?_, by simp⟩⟩, rfl⟩
  · cases readError with
    | none => exact hrelay
    | some error => exact hrelay.mark rfl
  · intro _
    exact hbooks.overflow (by simp [hpc])

/-- Reading does not change what was read before. -/
theorem Tracks.turns (h : Tracks limit input rest r) (turns : List Turn) :
    Tracks limit input rest { r with turns } := by
  obtain ⟨seen, hrelay, hbooks⟩ := h
  exact ⟨seen, hrelay, ⟨hbooks.total, hbooks.crossing, hbooks.overflow, hbooks.discarding⟩⟩

theorem ahead_of_loop (hpc : r.pc = .loop) : r.ahead = Turn.input r.turns := by
  simp [ahead, hpc]

/-- A reader that could send goes on reading. -/
theorem count_ahead (hpc : r.pc = .loop) :
    (r.count limit true bytes).ahead = Turn.input r.turns := by
  cases limit with
  | none => simp [CaptureReader.count, CaptureReader.send, ahead, hpc]
  | some max =>
      simp only [CaptureReader.count]
      split
      · simp [ahead]
      · simp [CaptureReader.send, ahead, hpc]

/-- A pass of the loop, once `read` has returned. -/
theorem Tracks.afterRead {result : Except IoError (List UInt8)}
    (h : Tracks limit input (Turn.input (.read result :: r.turns)) r) (hpc : r.pc = .loop) :
    Tracks limit input (r.afterRead limit .live result).ahead
      (r.afterRead limit .live result) := by
  cases result with
  | error error =>
      by_cases hkind : error.kind = .interrupted
      · simpa [CaptureReader.afterRead, Turn.input, hkind, Signals.live, ahead_of_loop hpc] using h
      · simpa [CaptureReader.afterRead, Turn.input, hkind, Signals.live, ahead]
          using h.finish hpc (some error)
  | ok bytes =>
      by_cases hend : bytes = []
      · simpa [CaptureReader.afterRead, Turn.input, hend, ahead, Signals.live]
          using h.finish hpc none
      · have hpiece : Tracks limit input (bytes ++ Turn.input r.turns) r := by
          simpa [Turn.input, hend] using h
        cases hd : r.discarding with
        | true =>
            simpa [CaptureReader.afterRead, hend, Signals.live, hd, ahead_of_loop hpc]
              using hpiece.discard hpc hd
        | false =>
            simpa [CaptureReader.afterRead, hend, Signals.live, hd, count_ahead hpc]
              using hpiece.count hpc hd

theorem Tracks.pass (h : Tracks limit input (Turn.input r.turns) r) (hpc : r.pc = .loop)
    (pass : r.pass limit .live = some r') : Tracks limit input r'.ahead r' := by
  have hwaiting : Signals.live.stopWaiting = false := rfl
  simp only [CaptureReader.pass, hwaiting, Bool.false_eq_true, if_false] at pass
  cases hturns : r.turns with
  | nil => simp [hturns] at pass
  | cons turn rest =>
      rw [hturns] at h
      have hrest : Tracks limit input (Turn.input (turn :: rest)) { r with turns := rest } :=
        h.turns rest
      cases turn with
      | waitFailed error =>
          simp only [hturns, Option.some.injEq] at pass
          subst pass
          exact hrest.finish hpc (some error)
      | read result =>
          simp only [hturns, Option.some.injEq] at pass
          subst pass
          exact Tracks.afterRead (r := { r with turns := rest }) hrest hpc

/-- **A step keeps what the reader maintains**, as long as its collector is there. -/
theorem Tracks.step (h : Tracks limit input r.ahead r) (step : r.step limit .live = some r') :
    Tracks limit input r'.ahead r' := by
  cases hpc : r.pc with
  | loop =>
      rw [ahead_of_loop hpc] at h
      exact h.pass hpc (by simpa only [CaptureReader.step, hpc] using step)
  | raising =>
      simp only [CaptureReader.step, hpc, Option.some.injEq] at step
      subst step
      have hahead : r.ahead = Turn.input r.turns := by simp [ahead, hpc]
      rw [hahead] at h
      exact h.raise hpc
  | finishing readError =>
      have hahead : r.ahead = [] := by simp [ahead, hpc]
      rw [hahead] at h
      obtain ⟨htracks, hended⟩ := h.close hpc step
      simpa [ahead, hended] using htracks
  | ended => simp [CaptureReader.step, hpc] at step

/-- Receiving changes nothing for the reader. -/
theorem Tracks.receive {channel : Channel (Except IoError (List UInt8))}
    (h : Tracks limit input rest r) (sent : channel.sent = r.channel.sent) :
    Tracks limit input rest { r with channel } := by
  obtain ⟨seen, hrelay, hbooks⟩ := h
  exact ⟨seen, hrelay.receive sent, ⟨hbooks.total, hbooks.crossing, hbooks.overflow,
    hbooks.discarding⟩⟩

/-- Who found the channel disconnected has received the retained input, and the flag is final. -/
theorem Tracks.complete (h : Tracks limit input r.ahead r) (hended : r.pc = .ended)
    (drained : r.channel.inFlight = []) :
    r.channel.delivered.flatMap captured = clip limit input ∧
      r.overflow = exceeds limit input := by
  obtain ⟨seen, hrelay, hbooks⟩ := h
  have hahead : r.ahead = [] := by simp [ahead, hended]
  rw [hahead] at hrelay
  obtain ⟨hcarried, rfl⟩ := hrelay.carried_input
  refine ⟨?_, hbooks.overflow (by simp [hended])⟩
  simpa [Channel.sent, drained] using hcarried

end Live

end CaptureReader

end Libdeno.Output
