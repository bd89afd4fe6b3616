import Libdeno.Output.Collection

/-!
# Libdeno.Output.Capture

`collect_blocks_until` (output.rs) over the in-process reader threads, one collector a stream,
and its agreement with the subprocess collection: where both streams reach their end before the
deadline, each of the two implementations retains the first `limit` bytes of every stream and
raises the stream's flag exactly when there were more (`capture_readers_agree`).
-/

namespace Libdeno.Output

open Relay Transition

/-- `capture_incomplete_error`. -/
def captureIncompleteError : IoError :=
  { kind := .timedOut
    message := "output capture incomplete: collection deadline expired before EOF; " ++
      "a detached child usually holds the captured stdout/stderr pipe open " ++
      "(give it stdout: \"null\" or a log file instead of \"inherit\")" }

/-- Where `collect_blocks_until` stands: still in its loop, out of it at the end of the stream,
or returned with an error. -/
inductive BlocksPc
  | collecting
  | eof
  | failed (error : IoError)
  deriving Repr, DecidableEq

/-- A stream being captured: its reader, and what `collect_blocks_until` has of it. -/
structure StreamCapture where
  reader : CaptureReader
  out : List UInt8
  pc : BlocksPc
  deriving Repr, DecidableEq

namespace StreamCapture

def new (turns : List Turn) : StreamCapture :=
  { reader := .new turns, out := [], pc := .collecting }

/-- One pass of the loop of `collect_blocks_until`, where the clock reads `now`; a receive that
finds nothing has timed out, and one that finds a block may have waited for it. -/
def advance (deadline now : Nat) (stream : StreamCapture) : Option StreamCapture :=
  match stream.pc with
  | .collecting =>
      if deadline ≤ now then some { stream with pc := .failed captureIncompleteError }
      else
        match stream.reader.channel.pop with
        | some (.ok block, channel) =>
            some { stream with
              reader := { stream.reader with channel }, out := stream.out ++ block }
        | some (.error error, channel) =>
            some { stream with reader := { stream.reader with channel }, pc := .failed error }
        | none =>
            if stream.reader.pc = .ended then some { stream with pc := .eof }
            else some { stream with pc := .failed captureIncompleteError }
  | .eof | .failed _ => none

/-- What `collect_blocks_until` returns, once its loop is left. -/
def collectBlocks (stream : StreamCapture) : Option (Except IoError (List UInt8 × Bool)) :=
  match stream.pc with
  | .collecting => none
  | .eof => some (.ok (stream.out, stream.reader.overflow))
  | .failed error => some (.error error)

/-- What holds of a stream in every run. -/
structure Sound (limit : Option Nat) (input : List UInt8) (stream : StreamCapture) : Prop where
  live : stream.pc = .collecting → stream.reader.Tracks limit input stream.reader.ahead
  out : stream.pc = .collecting → stream.out = stream.reader.channel.delivered.flatMap captured
  eof : stream.pc = .eof → stream.reader.pc = .ended ∧ stream.out = clip limit input ∧
    stream.reader.overflow = exceeds limit input

section

variable {limit : Option Nat} {input : List UInt8} {stream stream' : StreamCapture}

theorem sound_new (limit : Option Nat) (turns : List Turn) :
    (new turns).Sound limit (Turn.input turns) where
  live := fun _ => CaptureReader.tracks_new limit turns
  out := fun _ => rfl
  eof := by simp [new]

/-- A step of the reader; the collector has taken nothing, and a stream at its end has no
reader left. -/
theorem Sound.read (h : stream.Sound limit input) {signals : Signals} {reader : CaptureReader}
    (allowed : stream.pc ≠ .collecting ∨ signals = .live)
    (step : stream.reader.step limit signals = some reader) :
    Sound limit input { stream with reader } := by
  refine ⟨fun hpc => ?_, fun hpc => ?_, fun hpc => ?_⟩
  · rcases allowed with hne | rfl
    · exact absurd hpc hne
    · exact (h.live hpc).step step
  · rw [CaptureReader.step_delivered step]
    exact h.out hpc
  · have hended := (h.eof hpc).1
    simp [CaptureReader.step, hended] at step

/-- A step of the collector. -/
theorem Sound.advance (h : stream.Sound limit input) {deadline now : Nat}
    (step : stream.advance deadline now = some stream') : stream'.Sound limit input := by
  cases hpc : stream.pc with
  | collecting =>
      simp only [StreamCapture.advance, hpc] at step
      split at step
      · cases step
        exact ⟨by simp, by simp, by simp⟩
      · cases hpop : stream.reader.channel.pop with
        | none =>
            rw [hpop] at step
            simp only at step
            split at step
            · next hended =>
              cases step
              -- disconnected: everything the reader sent was delivered
              obtain ⟨hcarried, hoverflow⟩ :=
                (h.live hpc).complete hended (inFlight_of_pop hpop)
              exact ⟨by simp, by simp, fun _ => ⟨hended, (h.out hpc).trans hcarried, hoverflow⟩⟩
            · cases step
              exact ⟨by simp, by simp, by simp⟩
        | some received =>
            obtain ⟨message, channel⟩ := received
            rw [hpop] at step
            cases message with
            | error error =>
                cases step
                exact ⟨by simp, by simp, by simp⟩
            | ok block =>
                cases step
                refine ⟨fun _ => (h.live hpc).receive (Channel.sent_of_pop hpop), fun _ => ?_,
                  by simp⟩
                simp [Channel.delivered_of_pop hpop, h.out hpc]
  | eof => simp [StreamCapture.advance, hpc] at step
  | failed error => simp [StreamCapture.advance, hpc] at step

/-- What a stream at its end returns. -/
theorem Sound.collectBlocks (h : stream.Sound limit input) (hpc : stream.pc = .eof) :
    stream.collectBlocks = some (.ok (clip limit input, exceeds limit input)) := by
  obtain ⟨-, hout, hoverflow⟩ := h.eof hpc
  simp [StreamCapture.collectBlocks, hpc, hout, hoverflow]

/-! ### The collector returns -/

/-- The reader has ended without an error. -/
def SentEof (stream : StreamCapture) : Prop :=
  stream.reader.pc = .ended ∧ ∀ m ∈ stream.reader.channel.inFlight, ∃ block, m = .ok block

/-- The collector on its own, at the given clock readings. -/
def run (deadline : Nat) : List Nat → StreamCapture → StreamCapture
  | [], stream => stream
  | now :: clock, stream =>
      match stream.advance deadline now with
      | some stream' => run deadline clock stream'
      | none => stream

/-- Before the deadline a collector takes the next block, or finds the end. -/
theorem SentEof.advance (h : stream.SentEof) (hpc : stream.pc = .collecting) {deadline now : Nat}
    (early : now < deadline) :
    ∃ stream', stream.advance deadline now = some stream' ∧
      ((stream'.pc = .eof ∧ stream.reader.channel.inFlight = []) ∨
        (stream'.pc = .collecting ∧ stream'.SentEof ∧
          stream'.reader.channel.inFlight.length + 1 =
            stream.reader.channel.inFlight.length)) := by
  obtain ⟨hended, hblocks⟩ := h
  have hlate : ¬ deadline ≤ now := Nat.not_le.mpr early
  cases hflight : stream.reader.channel.inFlight with
  | nil =>
      refine ⟨{ stream with pc := .eof }, ?_, .inl ⟨rfl, rfl⟩⟩
      simp [StreamCapture.advance, hpc, hlate, Channel.pop, hflight, hended]
  | cons message rest =>
      obtain ⟨block, rfl⟩ := hblocks message (by simp [hflight])
      refine ⟨_, by simp [StreamCapture.advance, hpc, hlate, Channel.pop, hflight]; rfl, ?_⟩
      refine .inr ⟨rfl, ⟨hended, ?_⟩, by simp⟩
      intro m hm
      exact hblocks m (by rw [hflight]; exact List.mem_cons_of_mem _ hm)

/-- Enough clock readings before the deadline bring it to the end of the stream. -/
theorem SentEof.run_eof (h : stream.SentEof) (hpc : stream.pc = .collecting) {deadline : Nat}
    (clock : List Nat) (early : ∀ now ∈ clock, now < deadline)
    (enough : stream.reader.channel.inFlight.length < clock.length) :
    (stream.run deadline clock).pc = .eof := by
  induction clock generalizing stream with
  | nil => simp at enough
  | cons now clock ih =>
      obtain ⟨stream', hstep, hnext⟩ := h.advance hpc (early now (by simp))
      simp only [StreamCapture.run, hstep]
      rcases hnext with ⟨heof, -⟩ | ⟨hpc', hsent, hfewer⟩
      · cases clock with
        | nil => exact heof
        | cons now' clock => simp [StreamCapture.run, StreamCapture.advance, heof]
      · refine ih hsent hpc' (fun now hmem => early now (by simp [hmem])) ?_
        simp only [List.length_cons] at enough
        omega

end

end StreamCapture

/-! ### The two streams -/

/-- The steps of the readers and the collectors of the two streams. -/
inductive CaptureStep (limit : Option Nat) (deadlines : Slot → Nat) :
    (Slot → Option StreamCapture) → (Slot → Option StreamCapture) → Prop
  | read {s : Slot → Option StreamCapture} (slot : Slot) {stream : StreamCapture}
      {signals : Signals} {reader : CaptureReader} (captured : s slot = some stream)
      (allowed : stream.pc ≠ .collecting ∨ signals = .live)
      (step : stream.reader.step limit signals = some reader) :
      CaptureStep limit deadlines s (Function.update s slot (some { stream with reader }))
  | collect {s : Slot → Option StreamCapture} (slot : Slot) (now : Nat)
      {stream stream' : StreamCapture} (captured : s slot = some stream)
      (step : stream.advance (deadlines slot) now = some stream') :
      CaptureStep limit deadlines s (Function.update s slot (some stream'))

/-- The states of the runs over given pipes. -/
abbrev CaptureRuns (limit : Option Nat) (deadlines : Slot → Nat)
    (scripts : Slot → Option (List Turn)) : (Slot → Option StreamCapture) → Prop :=
  Reachable (· = fun slot => (scripts slot).map StreamCapture.new) (CaptureStep limit deadlines)

section

variable {limit : Option Nat} {deadlines : Slot → Nat} {scripts : Slot → Option (List Turn)}
  {s : Slot → Option StreamCapture}

theorem CaptureRuns.sound (h : CaptureRuns limit deadlines scripts s) :
    Captured (StreamCapture.Sound limit) scripts s := by
  refine Reachable.invariant (P := Captured (StreamCapture.Sound limit) scripts) ?_ ?_ h
  · rintro _ rfl
    refine Captured.of_slots (fun slot script => by simp [script]) ?_
    intro slot turns script
    exact ⟨.new turns, by simp [script], StreamCapture.sound_new limit turns⟩
  · intro s t hs step
    cases step with
    | read slot captured allowed step =>
        exact hs.update captured fun _ hsound => hsound.read allowed step
    | collect slot now captured step =>
        exact hs.update captured fun _ hsound => hsound.advance step

/-- The reader of one stream may run on its own. -/
theorem CaptureRuns.read (h : CaptureRuns limit deadlines scripts s) (slot : Slot)
    {stream : StreamCapture} (captured : s slot = some stream) (n : Nat) :
    CaptureRuns limit deadlines scripts
      (Function.update s slot (some { stream with reader := stream.reader.run limit n })) := by
  induction n generalizing s stream with
  | zero => simpa [CaptureReader.run, ← captured] using h
  | succ n ih =>
      simp only [CaptureReader.run]
      split
      · next reader step =>
        have hnext := ih (h.snoc (.read slot captured (.inr rfl) step)) (Function.update_self ..)
        simpa using hnext
      · simpa [← captured] using h

/-- The collector of one stream may run on its own. -/
theorem CaptureRuns.run (h : CaptureRuns limit deadlines scripts s) {slot : Slot}
    {stream : StreamCapture} (captured : s slot = some stream) (clock : List Nat) :
    CaptureRuns limit deadlines scripts
      (Function.update s slot (some (stream.run (deadlines slot) clock))) := by
  induction clock generalizing s stream with
  | nil => simpa [StreamCapture.run, ← captured] using h
  | cons now clock ih =>
      simp only [StreamCapture.run]
      split
      · next stream' step =>
        have hnext := ih (h.snoc (.collect slot now captured step)) (Function.update_self ..)
        simpa using hnext
      · simpa [← captured] using h

end

/-- What is to be left of a stream under a byte limit. -/
structure Retains (max : Nat) (input out : List UInt8) (flag : Bool) : Prop where
  out : out = input.take max
  flag : flag = true ↔ max < input.length

/-- **The capture readers agree.** Over the same pipes and under the same limit, in whatever
order the readers and collectors run: where the end of every stream was received before the
deadline, `collect` has the first `max` bytes of each and a flag that says whether there were
more, and so has `collect_blocks_until`. Both do return, when they are given the time to receive
what the readers have sent. -/
theorem capture_readers_agree (max : Nat) (scripts : Slot → Option (List Turn)) :
    (∀ deadlines c, Collection.Runs max deadlines scripts c →
      c.Streams (fun _ stream => stream.ReceivedEof) scripts →
        c.Streams (fun input stream =>
          Retains max input stream.output stream.reader.overflow) scripts ∧
        c.capture deadlines =
          { stdout := Collection.retained max (scripts .stdout)
            stderr := Collection.retained max (scripts .stderr)
            truncated :=
              Collection.lost max (scripts .stdout) || Collection.lost max (scripts .stderr)
            incomplete := false
            readerError := false
            deadlineWon := false
            error := none }) ∧
    (∀ deadlines c, Collection.Runs max deadlines scripts c → c.polling = true →
      c.Streams (fun _ stream => stream.SentEof) scripts →
        ∀ clock : List Nat, (∀ now ∈ clock, now < deadlines.deadline) → c.rank < clock.length →
          Collection.Runs max deadlines scripts (c.run deadlines clock) ∧
          (c.run deadlines clock).pc = .ended ∧
          (c.run deadlines clock).Streams (fun _ stream => stream.ReceivedEof) scripts) ∧
    (∀ deadlines s, CaptureRuns (some max) deadlines scripts s →
      Captured (fun input stream => stream.pc = .eof →
        Retains max input stream.out stream.reader.overflow ∧
        stream.collectBlocks = some (.ok (input.take max, decide (max < input.length))))
          scripts s) ∧
    (∀ deadlines s, CaptureRuns (some max) deadlines scripts s → ∀ slot stream,
      s slot = some stream → stream.pc = .collecting → stream.SentEof →
        ∀ clock : List Nat, (∀ now ∈ clock, now < deadlines slot) →
          stream.reader.channel.inFlight.length < clock.length →
            CaptureRuns (some max) deadlines scripts
              (Function.update s slot (some (stream.run (deadlines slot) clock))) ∧
            (stream.run (deadlines slot) clock).pc = .eof) := by
  refine ⟨?_, ?_, ?_, ?_⟩
  · intro deadlines c hruns heof
    refine ⟨Captured.of_slots (fun _ => heof.absent) ?_, hruns.capture_eq heof⟩
    intro slot turns script
    obtain ⟨stream, hstream, hreceived⟩ := heof.get script
    obtain ⟨-, -, houtput, hoverflow⟩ := hruns.sound.of_eof script hstream hreceived
    exact ⟨stream, hstream, houtput, by simp [hoverflow]⟩
  · intro deadlines c hruns hpolling heof clock hearly henough
    exact hruns.returns hpolling heof clock hearly henough
  · intro deadlines s hruns
    refine hruns.sound.imp fun input stream hsound heof => ?_
    obtain ⟨-, hout, hoverflow⟩ := hsound.eof heof
    exact ⟨⟨hout, by simp [hoverflow, exceeds_some]⟩, hsound.collectBlocks heof⟩
  · intro deadlines s hruns slot stream hstream hpc heof clock hearly henough
    exact ⟨hruns.run hstream clock, heof.run_eof hpc clock hearly henough⟩

/-- Two pipes: one is interrupted and cut inside a block, the other fits. -/
def samplePipes : Slot → Option (List Turn)
  | .stdout => some
      [.read (.ok [1, 2]), .read (.error { kind := .interrupted, message := "" }),
        .read (.ok [3, 4]), .read (.ok [5]), .read (.ok [])]
  | .stderr => some [.read (.ok [6, 7]), .read (.ok [8]), .read (.ok [])]

/-- The subprocess readers have run to their ends, and the collector has not begun. -/
theorem exists_sentEof (deadlines : Deadlines) :
    ∃ c, Collection.Runs 3 deadlines samplePipes c ∧ c.polling = true ∧
      c.Streams (fun _ stream => stream.SentEof) samplePipes ∧ c.rank < 80 := by
  have hstart : Collection.Runs 3 deadlines samplePipes (.start samplePipes) :=
    Reachable.start rfl
  have hout := Collection.Runs.read hstart .stdout rfl 7
  refine ⟨_, Collection.Runs.read hout .stderr rfl 4, rfl, ?_, by decide⟩
  intro slot
  cases slot with
  | stdout => exact .some ⟨by decide, by decide⟩
  | stderr => exact .some ⟨by decide, by decide⟩

/-- The in-process reader of the first pipe has run to its end. -/
theorem exists_captured (deadlines : Slot → Nat) :
    ∃ s stream, CaptureRuns (some 3) deadlines samplePipes s ∧ s .stdout = some stream ∧
      stream.pc = .collecting ∧ stream.SentEof ∧
      stream.reader.channel.inFlight.length < 4 := by
  have hstart : CaptureRuns (some 3) deadlines samplePipes
      (fun slot => (samplePipes slot).map StreamCapture.new) := Reachable.start rfl
  refine ⟨_, _, CaptureRuns.read hstart .stdout rfl 7, Function.update_self .., rfl,
    ⟨by decide, ?_⟩, by decide⟩
  have hflight : (CaptureReader.run (some 3) 7
      (.new ((samplePipes .stdout).getD []))).channel.inFlight = [.ok [1, 2], .ok [3]] := by
    decide
  intro m hm
  have hm' : m ∈ [Except.ok [1, 2], Except.ok [3]] := hflight ▸ hm
  simp only [List.mem_cons, List.not_mem_nil, or_false] at hm'
  rcases hm' with rfl | rfl
  · exact ⟨_, rfl⟩
  · exact ⟨_, rfl⟩

theorem capture_readers_agree_sample :
    (∃ c, Collection.Runs 3 { fixed := 1, effective := none } samplePipes c ∧
      c.capture { fixed := 1, effective := none } =
        { stdout := [1, 2, 3]
          stderr := [6, 7, 8]
          truncated := true
          incomplete := false
          readerError := false
          deadlineWon := false
          error := none }) ∧
    ∃ s stream, CaptureRuns (some 3) (fun _ => 1) samplePipes s ∧ s .stdout = some stream ∧
      stream.collectBlocks = some (.ok ([1, 2, 3], true)) := by
  obtain ⟨hcapture, hreturns, hblocks, hends⟩ := capture_readers_agree 3 samplePipes
  refine ⟨?_, ?_⟩
  · obtain ⟨c, hruns, hpolling, hsent, hrank⟩ := exists_sentEof { fixed := 1, effective := none }
    obtain ⟨hruns', -, heof⟩ := hreturns _ c hruns hpolling hsent (List.replicate 80 0)
      (fun now hmem => by simp [List.eq_of_mem_replicate hmem, Deadlines.deadline])
      (by simpa using hrank)
    exact ⟨_, hruns', (hcapture _ _ hruns' heof).2⟩
  · obtain ⟨s, stream, hruns, hstream, hpc, hsent, hlength⟩ := exists_captured fun _ => 1
    obtain ⟨hruns', heof⟩ := hends _ s hruns .stdout stream hstream hpc hsent [0, 0, 0, 0]
      (by simp) hlength
    refine ⟨_, _, hruns', Function.update_self .., ?_⟩
    obtain ⟨turns, hscript, hout⟩ := (hblocks _ _ hruns').stream (Function.update_self ..)
    cases hscript
    exact (hout heof).2

end Libdeno.Output
