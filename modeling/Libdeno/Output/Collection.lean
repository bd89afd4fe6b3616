import Libdeno.Library.Transition
import Libdeno.Output.Readers

/-!
# Libdeno.Output.Collection

`SubprocessOutputReaders::collect` (subprocess.rs) over the two reader threads, as a transition
system: the collector polls the streams in turn, gives up at its deadline, and waits for the
first unfinished stream when a round brought nothing. A step belongs to a reader or to the
collector, so runs are all their interleavings; clock readings are arbitrary, and a reader may
find itself stopped or disconnected only once the collector has ended.

A stream whose last message was received has everything (`Complete`), whatever its reader or the
collector do from then on; `collect_capture` reads the collector's result off from it.
-/

namespace Libdeno.Output

open Relay Transition

/-- The streams of a child, in the order the collector polls them. -/
inductive Slot
  | stdout
  | stderr
  deriving Repr, DecidableEq

/-- A property of what stands in every captured slot, against the input of its pipe. -/
def Captured {Stream : Type} (P : List UInt8 → Stream → Prop)
    (scripts : Slot → Option (List Turn)) (streams : Slot → Option Stream) : Prop :=
  ∀ slot, Option.Rel (fun turns stream => P (Turn.input turns) stream) (scripts slot)
    (streams slot)

namespace Captured

variable {Stream : Type} {P Q : List UInt8 → Stream → Prop}
  {scripts : Slot → Option (List Turn)} {streams : Slot → Option Stream}

/-- Slot by slot: nothing is captured, or the stream has the property. -/
theorem of_slots (absent : ∀ slot, scripts slot = none → streams slot = none)
    (present : ∀ slot turns, scripts slot = some turns →
      ∃ stream, streams slot = some stream ∧ P (Turn.input turns) stream) :
    Captured P scripts streams := by
  intro slot
  cases hscript : scripts slot with
  | none =>
      rw [absent slot hscript]
      exact .none
  | some turns =>
      obtain ⟨stream, hstream, hp⟩ := present slot turns hscript
      rw [hstream]
      exact .some hp

theorem absent (h : Captured P scripts streams) {slot : Slot} (script : scripts slot = none) :
    streams slot = none := by
  have hslot := h slot
  rw [script] at hslot
  cases hstream : streams slot with
  | none => rfl
  | some stream => rw [hstream] at hslot; cases hslot

theorem get (h : Captured P scripts streams) {slot : Slot} {turns : List Turn}
    (script : scripts slot = some turns) :
    ∃ stream, streams slot = some stream ∧ P (Turn.input turns) stream := by
  have hslot := h slot
  rw [script] at hslot
  cases hstream : streams slot with
  | none => rw [hstream] at hslot; cases hslot
  | some stream =>
      rw [hstream] at hslot
      cases hslot with
      | some hp => exact ⟨stream, rfl, hp⟩

/-- The stream that stands in a slot is captured there. -/
theorem stream (h : Captured P scripts streams) {slot : Slot} {stream : Stream}
    (captured : streams slot = some stream) :
    ∃ turns, scripts slot = some turns ∧ P (Turn.input turns) stream := by
  cases hscript : scripts slot with
  | none =>
      rw [h.absent hscript] at captured
      cases captured
  | some turns =>
      obtain ⟨stream', hstream', hp⟩ := h.get hscript
      rw [captured, Option.some.injEq] at hstream'
      subst hstream'
      exact ⟨turns, rfl, hp⟩

theorem imp (h : Captured P scripts streams)
    (next : ∀ input stream, P input stream → Q input stream) : Captured Q scripts streams := by
  refine of_slots (fun _ => h.absent) fun slot turns script => ?_
  obtain ⟨stream, hstream, hp⟩ := h.get script
  exact ⟨stream, hstream, next _ _ hp⟩

theorem and (hp : Captured P scripts streams) (hq : Captured Q scripts streams) :
    Captured (fun input stream => P input stream ∧ Q input stream) scripts streams := by
  refine of_slots (fun _ => hp.absent) fun slot turns script => ?_
  obtain ⟨stream, hstream, hsp⟩ := hp.get script
  obtain ⟨stream', hstream', hsq⟩ := hq.get script
  rw [hstream, Option.some.injEq] at hstream'
  subst hstream'
  exact ⟨stream, hstream, hsp, hsq⟩

/-- A step on one slot leaves the other alone. -/
theorem update (h : Captured P scripts streams) {slot : Slot} {stream stream' : Stream}
    (captured : streams slot = some stream) (next : ∀ input, P input stream → P input stream') :
    Captured P scripts (Function.update streams slot (some stream')) := by
  intro other
  by_cases hother : other = slot
  · subst hother
    obtain ⟨turns, hscript, hp⟩ := h.stream captured
    rw [hscript, Function.update_self]
    exact .some (next _ hp)
  · rw [Function.update_of_ne hother]
    exact h other

end Captured

/-- `SubprocessOutputStream`: the collector's side of a reader. -/
structure SubprocessOutputStream where
  reader : DrainReader
  name : String
  output : List UInt8
  error : Option IoError
  done : Bool
  deriving Repr, DecidableEq

namespace SubprocessOutputStream

def new (reader : DrainReader) (name : String) : SubprocessOutputStream :=
  { reader, name, output := [], error := none, done := false }

def accept (stream : SubprocessOutputStream) :
    SubprocessOutputReaderMessage → SubprocessOutputStream
  | .data block => { stream with output := stream.output ++ block }
  | .finished => { stream with done := true }
  | .failed error =>
      { stream with
        error := some
          { kind := .other, message := stream.name ++ " reader failed: " ++ error.message }
        done := true }

def disconnected (stream : SubprocessOutputStream) : SubprocessOutputStream :=
  { stream with
    error := some
      { kind := .other, message := stream.name ++ " reader disconnected unexpectedly" }
    done := true }

/-- `try_receive` and `wait_receive`, with whether there was progress; a wait that finds nothing
has timed out, and one that finds a message may have waited for it. -/
def receive (stream : SubprocessOutputStream) : SubprocessOutputStream × Bool :=
  match stream.reader.channel.pop with
  | some (message, channel) =>
      ({ stream with reader := { stream.reader with channel } }.accept message, true)
  | none => if stream.reader.pc = .ended then (stream.disconnected, true) else (stream, false)

end SubprocessOutputStream

/-- `collect`'s two deadlines. -/
structure Deadlines where
  fixed : Nat
  effective : Option Nat
  deriving Repr, DecidableEq

/-- The earlier of the two. -/
def Deadlines.deadline (deadlines : Deadlines) : Nat :=
  match deadlines.effective with
  | some effective => min deadlines.fixed effective
  | none => deadlines.fixed

/-- Where `collect` stands. -/
inductive CollectPc
  | receive (slot : Slot) (progress : Bool)
  | check (progress : Bool)
  | wait
  | drain (slot : Slot)
  | ended
  deriving Repr, DecidableEq

/-- The collector with its streams; a stream that is not captured is `none`. -/
structure Collection where
  streams : Slot → Option SubprocessOutputStream
  pc : CollectPc

/-- `SubprocessOutputCapture`. -/
structure SubprocessOutputCapture where
  stdout : List UInt8
  stderr : List UInt8
  truncated : Bool
  incomplete : Bool
  readerError : Bool
  deadlineWon : Bool
  error : Option IoError
  deriving Repr, DecidableEq

namespace Collection

/-- `stream.done`, and so for a stream that is not captured. -/
def slotDone (c : Collection) (slot : Slot) : Bool :=
  (c.streams slot).all (·.done)

def setStream (c : Collection) (slot : Slot) (stream : SubprocessOutputStream) : Collection :=
  { c with streams := Function.update c.streams slot (some stream) }

/-- One receive on a slot, if its stream is captured and not done. -/
def receiveAt (c : Collection) (slot : Slot) : Collection × Bool :=
  match c.streams slot with
  | none => (c, false)
  | some stream =>
      if stream.done then (c, false)
      else (c.setStream slot stream.receive.1, stream.receive.2)

/-- One step of `collect`, where the clock reads `now`. -/
def advance (deadlines : Deadlines) (now : Nat) (c : Collection) : Option Collection :=
  match c.pc with
  | .receive slot progress =>
      let (c, received) := c.receiveAt slot
      let progress := progress || received
      some { c with pc := if slot = .stdout then .receive .stderr progress else .check progress }
  | .check progress =>
      some { c with
        pc :=
          if c.slotDone .stdout && c.slotDone .stderr then .ended
          else if deadlines.deadline ≤ now then
            if deadlines.effective.isSome then .drain .stdout else .ended
          else if progress then .receive .stdout false
          else .wait }
  | .wait =>
      -- the first stream that is not done
      let slot := if c.slotDone .stdout then Slot.stderr else Slot.stdout
      some { (c.receiveAt slot).1 with pc := .receive .stdout false }
  | .drain slot =>
      -- `drain_queued_output`: the next stream once this one is done or has nothing queued
      let (c, received) := c.receiveAt slot
      some { c with
        pc := if received then .drain slot else if slot = .stdout then .drain .stderr else .ended }
  | .ended => none

/-- What `collect` returns once its loop has ended. -/
def capture (deadlines : Deadlines) (c : Collection) : SubprocessOutputCapture :=
  let stdout := c.streams .stdout
  let stderr := c.streams .stderr
  let incomplete := stdout.any (!·.done) || stderr.any (!·.done)
  let readerError := stdout.any (·.error.isSome) || stderr.any (·.error.isSome)
  let effectiveFirst := deadlines.effective.any fun deadline => decide (deadline ≤ deadlines.fixed)
  { stdout := stdout.elim [] (·.output)
    stderr := stderr.elim [] (·.output)
    truncated := stdout.any (·.reader.overflow) || stderr.any (·.reader.overflow)
    incomplete := incomplete || readerError
    readerError
    deadlineWon := incomplete && !readerError && effectiveFirst
    error :=
      match stdout.bind (·.error), stderr.bind (·.error) with
      | some stdout, some stderr =>
          some { kind := .other, message := stdout.message ++ "; " ++ stderr.message }
      | some error, none | none, some error => some error
      | none, none => none }

/-- What a reader may see of the collector: nothing before it has ended. -/
def Allows (c : Collection) (signals : Signals) : Prop :=
  c.pc = .ended ∨ signals = .live

/-- The steps of the two readers and of the collector. -/
inductive Step (max : Nat) (deadlines : Deadlines) : Collection → Collection → Prop
  | read {c : Collection} (slot : Slot) {stream : SubprocessOutputStream} {signals : Signals}
      {reader : DrainReader} (captured : c.streams slot = some stream)
      (allowed : c.Allows signals) (step : stream.reader.step max signals = some reader) :
      Step max deadlines c (c.setStream slot { stream with reader })
  | collect {c c' : Collection} (now : Nat) (step : c.advance deadlines now = some c') :
      Step max deadlines c c'

/-- The name `collect` gives a stream. -/
def slotName : Slot → String
  | .stdout => "subprocess stdout"
  | .stderr => "subprocess stderr"

/-- The collector as it begins, over pipes that are still to deliver the given turns. -/
def start (scripts : Slot → Option (List Turn)) : Collection :=
  { streams := fun slot => (scripts slot).map fun turns => .new (.new turns) (slotName slot)
    pc := .receive .stdout false }

end Collection

/-! ### What a stream has received -/

/-- A reader that is through, with the part of the input it retained. -/
structure DrainReader.Through (max : Nat) (input : List UInt8) (r : DrainReader) : Prop where
  ended : r.pc = .ended
  drained : r.channel.inFlight = []
  carried : r.channel.delivered.flatMap SubprocessOutputReaderMessage.payload =
    clip (some max) input
  overflow : r.overflow = exceeds (some max) input

namespace SubprocessOutputStream

/-- The collector's side of a stream against what was delivered to it. -/
structure Received (stream : SubprocessOutputStream) : Prop where
  output : stream.output =
    stream.reader.channel.delivered.flatMap SubprocessOutputReaderMessage.payload
  done : stream.done = true ↔ ∃ m ∈ stream.reader.channel.delivered, m.ends = true
  undisturbed : stream.done = false → stream.error = none
  finished : .finished ∈ stream.reader.channel.delivered → stream.error = none

/-- A stream while the collector is there. -/
structure Live (max : Nat) (input : List UInt8) (stream : SubprocessOutputStream) : Prop where
  received : stream.Received
  tracks : stream.reader.Tracks max input stream.reader.ahead

/-- The end of the file is on its way to the collector. -/
def SentEof (stream : SubprocessOutputStream) : Prop :=
  stream.reader.pc = .ended ∧ .finished ∈ stream.reader.channel.sent

/-- The end of the file was received. -/
def ReceivedEof (stream : SubprocessOutputStream) : Prop :=
  .finished ∈ stream.reader.channel.delivered

/-- A stream at any time. -/
structure Settled (max : Nat) (input : List UInt8) (stream : SubprocessOutputStream) :
    Prop where
  received : stream.Received
  through : stream.done = true → stream.reader.Through max input

section

variable {max : Nat} {input : List UInt8} {stream : SubprocessOutputStream}

theorem Live.settled (h : stream.Live max input) : stream.Settled max input := by
  refine ⟨h.received, fun hdone => ?_⟩
  obtain ⟨hended, hdrained, hcarried, hoverflow⟩ :=
    h.tracks.complete (h.received.done.mp hdone)
  exact ⟨hended, hdrained, hcarried, hoverflow⟩

theorem live_new (max : Nat) (turns : List Turn) (name : String) :
    (new (.new turns) name).Live max (Turn.input turns) where
  received := by constructor <;> simp [new, DrainReader.new]
  tracks := DrainReader.tracks_new max turns

/-- Accepting the message that is delivered next. -/
theorem Received.accept (h : stream.Received) (undone : stream.done = false)
    {message : SubprocessOutputReaderMessage} {channel : Channel SubprocessOutputReaderMessage}
    (pop : stream.reader.channel.pop = some (message, channel)) :
    (SubprocessOutputStream.accept { stream with reader := { stream.reader with channel } }
      message).Received := by
  have hdelivered := Channel.delivered_of_pop pop
  -- No end was delivered before, or the stream would be done.
  have hnone : ∀ m ∈ stream.reader.channel.delivered, ¬ m.ends = true := by
    intro m hm hends
    have hdone := h.done.mpr ⟨m, hm, hends⟩
    rw [undone] at hdone
    cases hdone
  have hunfinished : .finished ∉ stream.reader.channel.delivered := fun hm => hnone _ hm rfl
  have herror := h.undisturbed undone
  cases message with
  | data block =>
      constructor
      · simp [SubprocessOutputStream.accept, hdelivered, h.output]
      · simp [SubprocessOutputStream.accept, hdelivered, undone]
        simpa using hnone
      · simp [SubprocessOutputStream.accept, herror]
      · simp [SubprocessOutputStream.accept, herror]
  | finished =>
      constructor
      · simp [SubprocessOutputStream.accept, hdelivered, h.output,
          SubprocessOutputReaderMessage.payload]
      · simp [SubprocessOutputStream.accept, hdelivered, SubprocessOutputReaderMessage.ends]
      · simp [SubprocessOutputStream.accept, herror]
      · simp [SubprocessOutputStream.accept, herror]
  | failed error =>
      constructor
      · simp [SubprocessOutputStream.accept, hdelivered, h.output,
          SubprocessOutputReaderMessage.payload]
      · simp [SubprocessOutputStream.accept, hdelivered, SubprocessOutputReaderMessage.ends]
      · simp [SubprocessOutputStream.accept]
      · simp [SubprocessOutputStream.accept, hdelivered, hunfinished]

/-- While a stream is not done, its channel is not found disconnected. -/
theorem Live.inFlight_of_ended (h : stream.Live max input) (undone : stream.done = false)
    (ended : stream.reader.pc = .ended) : stream.reader.channel.inFlight ≠ [] := by
  intro hflight
  obtain ⟨m, hm, hends⟩ := h.tracks.last ended
  have hdelivered : m ∈ stream.reader.channel.delivered := by
    simpa [Channel.sent, hflight] using hm
  have hdone := h.received.done.mpr ⟨m, hdelivered, hends⟩
  rw [undone] at hdone
  cases hdone

/-- A receive, where the stream is not done. -/
theorem Live.receive (h : stream.Live max input) (undone : stream.done = false) :
    stream.receive.1.Live max input := by
  cases hpop : stream.reader.channel.pop with
  | none =>
      have hended : stream.reader.pc ≠ .ended := by
        intro hended
        exact h.inFlight_of_ended undone hended (inFlight_of_pop hpop)
      simpa [SubprocessOutputStream.receive, hpop, hended] using h
  | some received =>
      obtain ⟨message, channel⟩ := received
      have htracks := h.tracks.receive (Channel.sent_of_pop hpop)
      have hreader : stream.receive.1.reader = { stream.reader with channel } := by
        simp only [SubprocessOutputStream.receive, hpop]
        cases message <;> rfl
      refine ⟨?_, by rw [hreader]; exact htracks⟩
      simp only [SubprocessOutputStream.receive, hpop]
      exact h.received.accept undone hpop

/-- A receive takes one message, where the reader has ended. -/
theorem Live.receive_of_sentEof (h : stream.Live max input) (eof : stream.SentEof)
    (undone : stream.done = false) :
    stream.receive.2 = true ∧ stream.receive.1.SentEof ∧
      stream.receive.1.reader.channel.inFlight.length + 1 =
        stream.reader.channel.inFlight.length := by
  obtain ⟨message, rest, hflight⟩ :=
    List.exists_cons_of_ne_nil (h.inFlight_of_ended undone eof.1)
  have hpop : stream.reader.channel.pop =
      some (message, ⟨stream.reader.channel.delivered ++ [message], rest⟩) := by
    simp [Channel.pop, hflight]
  have hreader : stream.receive.1.reader =
      { stream.reader with
        channel := ⟨stream.reader.channel.delivered ++ [message], rest⟩ } := by
    simp only [SubprocessOutputStream.receive, hpop]
    cases message <;> rfl
  refine ⟨by simp [SubprocessOutputStream.receive, hpop], ?_, by simp [hreader, hflight]⟩
  rw [SentEof, hreader]
  exact ⟨eof.1, by rw [Channel.sent_of_pop hpop]; exact eof.2⟩

theorem Received.read (h : stream.Received) {reader : DrainReader}
    (delivered : reader.channel.delivered = stream.reader.channel.delivered) :
    Received { stream with reader } := by
  refine ⟨?_, ?_, h.undisturbed, ?_⟩
  · rw [delivered]
    exact h.output
  · rw [delivered]
    exact h.done
  · rw [delivered]
    exact h.finished

/-- A step of the reader while the collector is there. -/
theorem Live.read (h : stream.Live max input) {reader : DrainReader}
    (step : stream.reader.step max .live = some reader) : Live max input { stream with reader } :=
  ⟨h.received.read (DrainReader.step_delivered step), h.tracks.step step⟩

/-- A step of the reader at any time: one that is through takes none. -/
theorem Settled.read (h : stream.Settled max input) {reader : DrainReader} {signals : Signals}
    (step : stream.reader.step max signals = some reader) :
    Settled max input { stream with reader } := by
  refine ⟨h.received.read (DrainReader.step_delivered step), fun hdone => ?_⟩
  have hended := (h.through hdone).ended
  simp [DrainReader.step, hended] at step

end

end SubprocessOutputStream

namespace Collection

/-! ### The invariant -/

section

variable {max : Nat} {deadlines : Deadlines} {scripts : Slot → Option (List Turn)}
  {c c' : Collection} {P : List UInt8 → SubprocessOutputStream → Prop}

/-- A property of every captured stream, against the input of its pipe. -/
abbrev Streams (P : List UInt8 → SubprocessOutputStream → Prop)
    (scripts : Slot → Option (List Turn)) (c : Collection) : Prop :=
  Captured P scripts c.streams

theorem Streams.receiveAt (h : Streams (SubprocessOutputStream.Live max) scripts c)
    (slot : Slot) : Streams (SubprocessOutputStream.Live max) scripts (c.receiveAt slot).1 := by
  unfold Collection.receiveAt
  split
  · exact h
  · next stream captured =>
    split
    · exact h
    · next undone =>
      exact h.update captured fun _ hlive => hlive.receive (by simpa using undone)

/-- A step of the collector keeps its streams sound. -/
theorem Streams.advance {now : Nat} (h : Streams (SubprocessOutputStream.Live max) scripts c)
    (step : c.advance deadlines now = some c') :
    Streams (SubprocessOutputStream.Live max) scripts c' := by
  unfold Collection.advance at step
  split at step
  · next slot _ _ =>
    cases step
    exact h.receiveAt slot
  · cases step
    exact h
  · cases step
    exact h.receiveAt _
  · next slot _ =>
    cases step
    exact h.receiveAt slot
  · cases step

/-- **What holds in every run.** -/
structure Sound (max : Nat) (scripts : Slot → Option (List Turn)) (c : Collection) : Prop where
  settled : Streams (SubprocessOutputStream.Settled max) scripts c
  live : c.pc ≠ .ended → Streams (SubprocessOutputStream.Live max) scripts c

theorem sound_start (max : Nat) (scripts : Slot → Option (List Turn)) :
    Sound max scripts (start scripts) := by
  have hlive : Streams (SubprocessOutputStream.Live max) scripts (start scripts) := by
    refine Captured.of_slots (fun slot script => by simp [start, script]) ?_
    intro slot turns script
    exact ⟨.new (.new turns) (slotName slot), by simp [start, script],
      SubprocessOutputStream.live_new max turns _⟩
  exact ⟨hlive.imp fun _ _ h => h.settled, fun _ => hlive⟩

theorem Sound.step (h : Sound max scripts c) (step : Step max deadlines c c') :
    Sound max scripts c' := by
  cases step with
  | read slot captured allowed step =>
      refine ⟨h.settled.update captured fun _ hs => hs.read step, fun hpc => ?_⟩
      rcases allowed with hended | rfl
      · exact absurd hended hpc
      · exact (h.live hpc).update captured fun _ hl => hl.read step
  | collect now step =>
      have hpc : c.pc ≠ .ended := by
        intro hended
        simp [Collection.advance, hended] at step
      have hlive := (h.live hpc).advance step
      exact ⟨hlive.imp fun _ _ h => h.settled, fun _ => hlive⟩

/-- The states of the runs over given pipes. -/
abbrev Runs (max : Nat) (deadlines : Deadlines) (scripts : Slot → Option (List Turn)) :
    Collection → Prop :=
  Reachable (· = start scripts) (Step max deadlines)

theorem Runs.sound (h : Runs max deadlines scripts c) : Sound max scripts c := by
  refine Reachable.invariant (P := Sound max scripts) ?_ ?_ h
  · rintro _ rfl
    exact sound_start max scripts
  · intro _ _ hs step
    exact hs.step step

theorem setStream_self {slot : Slot} {stream : SubprocessOutputStream}
    (captured : c.streams slot = some stream) : c.setStream slot stream = c := by
  simp [setStream, ← captured]

/-- The reader of one stream may run on its own. -/
theorem Runs.read (h : Runs max deadlines scripts c) (slot : Slot)
    {stream : SubprocessOutputStream} (captured : c.streams slot = some stream) (n : Nat) :
    Runs max deadlines scripts
      (c.setStream slot { stream with reader := stream.reader.run max n }) := by
  induction n generalizing c stream with
  | zero =>
      show Runs max deadlines scripts (c.setStream slot stream)
      rw [setStream_self captured]
      exact h
  | succ n ih =>
      simp only [DrainReader.run]
      split
      · next reader step =>
        have hcaptured : (c.setStream slot { stream with reader }).streams slot =
            some { stream with reader } := Function.update_self ..
        have hnext := ih (h.snoc (.read slot captured (.inr rfl) step)) hcaptured
        simpa [setStream] using hnext
      · show Runs max deadlines scripts (c.setStream slot stream)
        rw [setStream_self captured]
        exact h

/-! ### What is collected -/

/-- What is retained of a stream that may not be captured. -/
def retained (max : Nat) : Option (List Turn) → List UInt8
  | none => []
  | some turns => (Turn.input turns).take max

/-- Whether something of it is lost. -/
def lost (max : Nat) : Option (List Turn) → Bool
  | none => false
  | some turns => decide (max < (Turn.input turns).length)

/-- A stream whose end was received has the retained input and the final flag. -/
theorem Sound.of_eof (h : Sound max scripts c) {slot : Slot} {turns : List Turn}
    (script : scripts slot = some turns) {stream : SubprocessOutputStream}
    (captured : c.streams slot = some stream)
    (eof : stream.ReceivedEof) :
    stream.done = true ∧ stream.error = none ∧
      stream.output = (Turn.input turns).take max ∧
      stream.reader.overflow = decide (max < (Turn.input turns).length) := by
  obtain ⟨turns', hscript, hsettled⟩ := h.settled.stream captured
  rw [script, Option.some.injEq] at hscript
  subst hscript
  have hdone := hsettled.received.done.mpr ⟨_, eof, rfl⟩
  have hthrough := hsettled.through hdone
  refine ⟨hdone, hsettled.received.finished eof, ?_, hthrough.overflow⟩
  rw [hsettled.received.output, hthrough.carried]
  rfl

/-- The fields of the result that come from one slot. -/
theorem Sound.fields (h : Sound max scripts c)
    (eof : Streams (fun _ stream => stream.ReceivedEof) scripts c) (slot : Slot) :
    (c.streams slot).elim [] (·.output) = retained max (scripts slot) ∧
      (c.streams slot).any (·.reader.overflow) = lost max (scripts slot) ∧
      (c.streams slot).any (!·.done) = false ∧
      (c.streams slot).any (·.error.isSome) = false ∧
      (c.streams slot).bind (·.error) = none := by
  cases hscript : scripts slot with
  | none => simp [h.settled.absent hscript, retained, lost]
  | some turns =>
      obtain ⟨stream, hstream, hfinished⟩ := eof.get hscript
      obtain ⟨hdone, herror, houtput, hoverflow⟩ := h.of_eof hscript hstream hfinished
      simp [hstream, hdone, herror, houtput, hoverflow, retained, lost]

/-- **What `collect` returns** where every stream reached its end. -/
theorem Runs.capture_eq (h : Runs max deadlines scripts c)
    (eof : Streams (fun _ stream => stream.ReceivedEof) scripts c) :
    c.capture deadlines =
      { stdout := retained max (scripts .stdout)
        stderr := retained max (scripts .stderr)
        truncated := lost max (scripts .stdout) || lost max (scripts .stderr)
        incomplete := false
        readerError := false
        deadlineWon := false
        error := none } := by
  obtain ⟨hout, houtFlag, houtDone, houtErr, houtError⟩ := h.sound.fields eof .stdout
  obtain ⟨herr, herrFlag, herrDone, herrErr, herrError⟩ := h.sound.fields eof .stderr
  simp only [capture, hout, houtFlag, houtDone, houtErr, houtError, herr, herrFlag, herrDone,
    herrErr, herrError]
  rfl

/-! ### The collection ends -/

/-- Nothing is left to receive. -/
def allDone (c : Collection) : Bool := c.slotDone .stdout && c.slotDone .stderr

/-- The collector has not found its deadline passed. -/
def polling (c : Collection) : Bool :=
  match c.pc with
  | .receive _ _ | .check _ | .wait => true
  | .drain _ | .ended => false

/-- The messages in flight on a slot. -/
def queued (c : Collection) (slot : Slot) : Nat :=
  (c.streams slot).elim 0 (·.reader.channel.inFlight.length)

/-- How far a round is from a receive, where one is due. -/
def phase (c : Collection) : Nat :=
  match c.pc with
  | .receive .stdout progress => if progress then 6 else 3
  | .receive .stderr progress => if progress then 5 else 2
  | .check progress => if progress then 4 else 1
  | .wait => if c.allDone then 7 else 0
  | .drain _ | .ended => 0

/-- The rank that every step makes smaller once the readers have ended. -/
def rank (c : Collection) : Nat := 7 * (c.queued .stdout + c.queued .stderr) + c.phase

/-- The collector on its own, at the given clock readings. -/
def run (deadlines : Deadlines) : List Nat → Collection → Collection
  | [], c => c
  | now :: clock, c =>
      match c.advance deadlines now with
      | some c' => run deadlines clock c'
      | none => c

theorem run_of_ended (clock : List Nat) (h : c.pc = .ended) : c.run deadlines clock = c := by
  cases clock with
  | nil => rfl
  | cons now clock => simp [run, advance, h]

theorem Runs.run (h : Runs max deadlines scripts c) (clock : List Nat) :
    Runs max deadlines scripts (c.run deadlines clock) := by
  induction clock generalizing c with
  | nil => exact h
  | cons now clock ih =>
      simp only [Collection.run]
      split
      · next c' step => exact ih (h.snoc (.collect now step))
      · exact h

/-- The streams once their readers have ended. -/
abbrev Ending (max : Nat) (scripts : Slot → Option (List Turn)) : Collection → Prop :=
  Streams (fun input stream => stream.Live max input ∧ stream.SentEof) scripts

theorem queued_setStream {slot : Slot} {stream : SubprocessOutputStream}
    (captured : c.streams slot = some stream)
    (next : SubprocessOutputStream)
    (fewer : next.reader.channel.inFlight.length + 1 = stream.reader.channel.inFlight.length) :
    (c.setStream slot next).queued .stdout + (c.setStream slot next).queued .stderr + 1 =
      c.queued .stdout + c.queued .stderr := by
  cases slot with
  | stdout =>
      simp [queued, setStream, captured]
      omega
  | stderr =>
      simp [queued, setStream, captured]
      omega

/-- A receive on a stream whose reader has ended brings a message, unless it is done. -/
theorem Ending.receiveAt (h : Ending max scripts c) (slot : Slot) :
    Ending max scripts (c.receiveAt slot).1 ∧
      (((c.receiveAt slot).2 = false ∧ (c.receiveAt slot).1 = c ∧ c.slotDone slot = true) ∨
        ((c.receiveAt slot).2 = true ∧
          (c.receiveAt slot).1.queued .stdout + (c.receiveAt slot).1.queued .stderr + 1 =
            c.queued .stdout + c.queued .stderr)) := by
  cases hstream : c.streams slot with
  | none =>
      have hsame : c.receiveAt slot = (c, false) := by simp [Collection.receiveAt, hstream]
      rw [hsame]
      exact ⟨h, .inl ⟨rfl, rfl, by simp [slotDone, hstream]⟩⟩
  | some stream =>
      cases hdone : stream.done with
      | true =>
          have hsame : c.receiveAt slot = (c, false) := by
            simp [Collection.receiveAt, hstream, hdone]
          rw [hsame]
          exact ⟨h, .inl ⟨rfl, rfl, by simp [slotDone, hstream, hdone]⟩⟩
      | false =>
          have hnext : c.receiveAt slot =
              (c.setStream slot stream.receive.1, stream.receive.2) := by
            simp [Collection.receiveAt, hstream, hdone]
          rw [hnext]
          refine ⟨h.update hstream ?_, ?_⟩
          · intro _ hs
            exact ⟨hs.1.receive hdone, (hs.1.receive_of_sentEof hs.2 hdone).2.1⟩
          · obtain ⟨turns, -, hlive, heof⟩ := h.stream hstream
            obtain ⟨hreceived, -, hfewer⟩ := hlive.receive_of_sentEof heof hdone
            exact .inr ⟨hreceived, queued_setStream hstream _ hfewer⟩

theorem advance_receive {slot : Slot} {progress : Bool} {now : Nat}
    (hpc : c.pc = .receive slot progress) :
    c.advance deadlines now = some { (c.receiveAt slot).1 with
      pc := if slot = .stdout then .receive .stderr (progress || (c.receiveAt slot).2)
        else .check (progress || (c.receiveAt slot).2) } := by
  simp only [Collection.advance, hpc]

theorem advance_check {progress : Bool} {now : Nat} (hpc : c.pc = .check progress)
    (early : now < deadlines.deadline) :
    c.advance deadlines now = some { c with
      pc := if c.allDone then .ended
        else if progress then .receive .stdout false else .wait } := by
  have hlate : ¬ deadlines.deadline ≤ now := Nat.not_le.mpr early
  simp [Collection.advance, hpc, allDone, hlate]

theorem advance_wait {now : Nat} (hpc : c.pc = .wait) :
    c.advance deadlines now = some
      { (c.receiveAt (if c.slotDone .stdout then .stderr else .stdout)).1 with
        pc := .receive .stdout false } := by
  simp only [Collection.advance, hpc]

/-- A poll makes the rank smaller, whether or not it brings a message. -/
theorem Ending.receive (h : Ending max scripts c) {slot : Slot} {progress : Bool} {now : Nat}
    (hpc : c.pc = .receive slot progress) :
    ∃ c', c.advance deadlines now = some c' ∧ Ending max scripts c' ∧ c'.polling = true ∧
      c'.rank < c.rank := by
  obtain ⟨hending, hreceived⟩ := h.receiveAt slot
  refine ⟨_, advance_receive hpc, hending, by cases slot <;> rfl, ?_⟩
  rcases hreceived with ⟨hnothing, hsame, -⟩ | ⟨hmessage, hfewer⟩
  · rw [hnothing, hsame]
    cases slot <;> cases progress <;> simp [rank, queued, phase, hpc]
  · rw [hmessage]
    simp only [queued] at hfewer
    cases slot <;> cases progress <;> simp [rank, queued, phase, hpc] <;> omega

/-- So does waiting: a stream that is not done has a message in flight. -/
theorem Ending.wait (h : Ending max scripts c) {now : Nat} (hpc : c.pc = .wait) :
    ∃ c', c.advance deadlines now = some c' ∧ Ending max scripts c' ∧ c'.polling = true ∧
      c'.rank < c.rank := by
  obtain ⟨hending, hreceived⟩ :=
    h.receiveAt (if c.slotDone .stdout then Slot.stderr else Slot.stdout)
  refine ⟨_, advance_wait hpc, hending, rfl, ?_⟩
  rcases hreceived with ⟨-, hsame, hdone⟩ | ⟨-, hfewer⟩
  · have hall : c.allDone = true := by
      cases hout : c.slotDone .stdout with
      | true => simpa [allDone, hout] using hdone
      | false => simp [hout] at hdone
    rw [hsame]
    simp [rank, queued, phase, hpc, hall]
  · simp only [queued] at hfewer
    simp [rank, queued, phase, hpc]
    omega

/-- **A round goes on towards the end** once the readers have ended, before the deadline. -/
theorem Ending.advance (h : Ending max scripts c) (polling : c.polling = true) {now : Nat}
    (early : now < deadlines.deadline) :
    ∃ c', c.advance deadlines now = some c' ∧ Ending max scripts c' ∧
      ((c'.polling = true ∧ c'.rank < c.rank) ∨ (c'.pc = .ended ∧ c'.allDone = true)) := by
  cases hpc : c.pc with
  | receive slot progress =>
      obtain ⟨c', hstep, hending, hnext⟩ := h.receive hpc
      exact ⟨c', hstep, hending, .inl hnext⟩
  | check progress =>
      refine ⟨_, advance_check hpc early, h, ?_⟩
      cases hall : c.allDone with
      | true => exact .inr ⟨rfl, hall⟩
      | false =>
          refine .inl ?_
          have hwait : allDone { c with pc := .wait } = false := hall
          cases progress with
          | true => simp [Collection.polling, rank, queued, phase, hpc]
          | false =>
              refine ⟨rfl, Nat.add_lt_add_left (n := phase { c with pc := .wait }) ?_ _⟩
              simp [phase, hpc, hwait]
  | wait =>
      obtain ⟨c', hstep, hending, hnext⟩ := h.wait hpc
      exact ⟨c', hstep, hending, .inl hnext⟩
  | drain slot => simp [Collection.polling, hpc] at polling
  | ended => simp [Collection.polling, hpc] at polling

/-- Enough clock readings before the deadline bring the collector to its end. -/
theorem Ending.run_ended (h : Ending max scripts c) (polling : c.polling = true)
    (clock : List Nat) (early : ∀ now ∈ clock, now < deadlines.deadline)
    (enough : c.rank < clock.length) :
    Ending max scripts (c.run deadlines clock) ∧ (c.run deadlines clock).pc = .ended ∧
      (c.run deadlines clock).allDone = true := by
  induction clock generalizing c with
  | nil => simp at enough
  | cons now clock ih =>
      obtain ⟨c', hstep, hending, hnext⟩ := h.advance polling (early now (by simp))
      simp only [Collection.run, hstep]
      rcases hnext with ⟨hpolling, hrank⟩ | ⟨hended, hall⟩
      · refine ih hending hpolling (fun now hmem => early now (by simp [hmem])) ?_
        simp only [List.length_cons] at enough
        omega
      · rw [run_of_ended clock hended]
        exact ⟨hending, hended, hall⟩

/-- **The collector returns**: once the readers have sent the end of every captured stream, it
ends with all of them received, unless its deadline passes first. -/
theorem Runs.returns (h : Runs max deadlines scripts c) (polling : c.polling = true)
    (eof : Streams (fun _ stream => stream.SentEof) scripts c) (clock : List Nat)
    (early : ∀ now ∈ clock, now < deadlines.deadline) (enough : c.rank < clock.length) :
    Runs max deadlines scripts (c.run deadlines clock) ∧ (c.run deadlines clock).pc = .ended ∧
      Streams (fun _ stream => stream.ReceivedEof) scripts (c.run deadlines clock) := by
  have hpc : c.pc ≠ .ended := by
    intro hended
    simp [Collection.polling, hended] at polling
  have hending : Ending max scripts c := (h.sound.live hpc).and eof
  obtain ⟨hafter, hended, hall⟩ := hending.run_ended polling clock early enough
  have hruns := h.run clock
  refine ⟨hruns, hended, ?_⟩
  refine Captured.of_slots (fun _ => hafter.absent) fun slot turns script => ?_
  obtain ⟨stream, hstream, -, heof⟩ := hafter.get script
  refine ⟨stream, hstream, ?_⟩
  -- done, so nothing is in flight, and what was sent was delivered
  have hdone : stream.done = true := by
    simp only [allDone, slotDone, Bool.and_eq_true] at hall
    cases slot with
    | stdout => simpa [hstream] using hall.1
    | stderr => simpa [hstream] using hall.2
  obtain ⟨turns', -, hsettled⟩ := hruns.sound.settled.stream hstream
  have hdrained := (hsettled.through hdone).drained
  simpa [SubprocessOutputStream.ReceivedEof, Channel.sent, hdrained] using heof.2

end

end Collection

end Libdeno.Output
