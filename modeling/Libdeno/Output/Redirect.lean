import Libdeno.Library.Descriptors
import Libdeno.Library.Hoare
import Libdeno.Limits.Budget

/-!
# Libdeno.Output.Redirect

The redirection of fd 1 and fd 2 for a captured run (output.rs, on Unix): `SavedFd`,
`StreamCapture` and `OutputCapture` with their drops, over the descriptor table of the process.

Every call of the system may fail, and before each of them the other threads of the process
run: the host's own, which open, duplicate and close descriptors of theirs, and the reader
threads, which close their end of a pipe and then give back their slot of the budget
(`Others`). What the others do and which calls fail is the script of the run (`World.script`).

`World.host` is the table as the host's own calls alone would have made it. It is not part of
the program: it is what the results compare the table with.
-/

namespace Libdeno.Output.Redirect

open Descriptors Hoare

/-! ### The process -/

/-- What a descriptor refers to: a file of the host, or an end of a pipe of a capture. -/
inductive File
  | host (id : Nat)
  | pipeRead (pipe : Nat)
  | pipeWrite (pipe : Nat)
  deriving Repr, DecidableEq

/-- A reader thread: its end of the pipe, until it has closed it, and its stop flag. -/
structure Reader where
  pipe : Nat
  readFd : Option Nat
  stop : Bool
  deriving Repr, DecidableEq

/-- What another thread does. -/
inductive Others
  /-- A thread of the host opens, replaces or closes a descriptor. -/
  | host (fd : Nat) (opened : Option (Nat × Bool))
  /-- A reader thread has left its loop and closes its end of the pipe. -/
  | readerCloses (fd : Nat)
  /-- It gives back its slot of the budget, and is gone. -/
  | readerReleases (pipe : Nat)
  deriving Repr, DecidableEq

/-- One call of the system: what the other threads do before it, and whether it fails. -/
structure Turn where
  others : List Others
  fault : Option IoError
  deriving Repr, DecidableEq

/-- The process. -/
structure World where
  table : Table File
  /-- The table as the host's own calls alone would have made it. -/
  host : Table File
  /-- The number of the next pipe. -/
  next : Nat
  /-- `ACTIVE_CAPTURE_READERS`. -/
  active : Nat
  readers : List Reader
  script : List Turn
  deriving Repr, DecidableEq

/-- The host's threads leave the standard streams alone, and touch no descriptor they have not
opened. -/
def World.hostMay (w : World) (fd : Nat) : Bool :=
  fd ≠ 1 && fd ≠ 2 && w.table.entry fd = w.host.entry fd

def World.other (w : World) : Others → World
  | .host fd opened =>
      let descriptor : Option (Descriptor File) :=
        opened.map fun (id, cloexec) => { file := .host id, cloexec }
      if w.hostMay fd then
        { w with table := w.table.put fd descriptor, host := w.host.put fd descriptor }
      else w
  | .readerCloses fd =>
      if w.readers.any (·.readFd = some fd) then
        { w with
          table := w.table.close fd
          readers := w.readers.map fun r =>
            if r.readFd = some fd then { r with readFd := none } else r }
      else w
  | .readerReleases pipe =>
      if w.readers.any (fun r => r.pipe = pipe && r.readFd = none) then
        { w with
          active := w.active - 1
          readers := w.readers.eraseP fun r => r.pipe = pipe && r.readFd = none }
      else w

/-- The reason `abort_restore` gives. -/
structure Abort where
  target : Nat
  error : IoError
  deriving Repr, DecidableEq

abbrev Sys (α : Type) := Program Abort World α

/-! ### The calls of the system -/

/-- The other threads run; a call that is not made to fail goes on. -/
def turn : Sys (Option IoError) := do
  let w ← get
  match w.script with
  | [] => return none
  | t :: rest =>
      set (t.others.foldl World.other { w with script := rest })
      return t.fault

/-- `EBADF`. -/
def badDescriptor : IoError :=
  { kind := .other, message := "Bad file descriptor (os error 9)" }

/-- A call that changes the table, and fails with `EBADF` where it has nothing to act on. -/
def onTable {α : Type} (call : Table File → Option (α × Table File)) : Sys (Except IoError α) := do
  match ← turn with
  | some error => return .error error
  | none =>
      let w ← get
      match call w.table with
      | none => return .error badDescriptor
      | some (value, table) =>
          set { w with table }
          return .ok value

/-- `fcntl(fd, F_DUPFD_CLOEXEC, 3)`. -/
def dupfd (fd : Nat) : Sys (Except IoError Nat) := onTable (·.dupfdCloexec fd 3)

/-- `fcntl(fd, F_GETFD)`. -/
def getfd (fd : Nat) : Sys (Except IoError Bool) :=
  onTable fun table => (table.entry fd).map fun d => (d.cloexec, table)

/-- `fcntl(fd, F_SETFD, flags)`. -/
def setfd (fd : Nat) (flags : Bool) : Sys (Except IoError Unit) :=
  onTable fun table => (table.setfd fd flags).map ((), ·)

/-- `dup2(old, new)`. -/
def dup2 (old new : Nat) : Sys (Except IoError Unit) :=
  onTable fun table => (table.dup2 old new).map ((), ·)

/-- `close(fd)`, whose result the code does not look at. -/
def close (fd : Nat) : Sys Unit := do
  let _ ← turn
  modify fun w => { w with table := w.table.close fd }

/-- `pipe(fds)`, and the number of the pipe. -/
def pipe : Sys (Except IoError (Nat × Nat × Nat)) := do
  match ← turn with
  | some error => return .error error
  | none =>
      let w ← get
      let ((readFd, writeFd), table) := w.table.pipe (.pipeRead w.next) (.pipeWrite w.next)
      set { w with table, next := w.next + 1 }
      return .ok (w.next, readFd, writeFd)

/-- `std::io::stdout().flush()`, and the same for stderr. -/
def flush : Sys (Except IoError Unit) := do
  match ← turn with
  | some error => return .error error
  | none => return .ok ()

/-! ### The budget of readers -/

/-- `MAX_ACTIVE_CAPTURE_READERS`. -/
def MAX_ACTIVE_CAPTURE_READERS : Nat := 64

def reserveCaptureReader : Sys (Except IoError Unit) := do
  let w ← get
  if MAX_ACTIVE_CAPTURE_READERS ≤ w.active then
    return .error (Limits.exhausted "output capture reader/pipe"
      (BitVec.ofNat 64 w.active) (BitVec.ofNat 64 MAX_ACTIVE_CAPTURE_READERS))
  else
    set { w with active := w.active + 1 }
    return .ok ()

/-- The drop of a `CaptureReaderBudget`. -/
def releaseBudget : Sys Unit := modify fun w => { w with active := w.active - 1 }

/-! ### `restore_target` -/

/-- A loop that makes a call again while it is interrupted; the fuel is spent by no run that
starts with at least as much of it as there are turns in the script. -/
def untilDone (call : Sys (Except IoError Unit)) : Nat → Sys (Except IoError Unit)
  | 0 => call
  | fuel + 1 => do
      match ← call with
      | .ok () => return .ok ()
      | .error error =>
          if error.kind = .interrupted then untilDone call fuel else return .error error

/-- A call of the system made until it is not interrupted. -/
def uninterrupted (call : Sys (Except IoError Unit)) : Sys (Except IoError Unit) := do
  let w ← get
  untilDone call w.script.length

def restoreTarget (target saved : Nat) (flags : Bool) : Sys (Except IoError Unit) :=
  attempt (uninterrupted (dup2 saved target)) (return ()) fun () =>
  uninterrupted (setfd target flags)

/-- `restore_target`, and `abort_restore` where it fails. -/
def restoreOrAbort (target saved : Nat) (flags : Bool) : Sys Unit := do
  match ← restoreTarget target saved flags with
  | .ok () => return ()
  | .error error => throw { target, error }

/-! ### `StreamCapture` -/

/-- A `StreamCapture`; `reader` is the number of its pipe, whose reader has its stop flag. -/
structure StreamCapture where
  target : Nat
  saved : Option Nat
  targetFlags : Bool
  reader : Nat
  flushError : Option IoError
  deriving Repr, DecidableEq

/-- `set_cloexec`. -/
def setCloexec (fd : Nat) : Sys (Except IoError Unit) :=
  attempt (getfd fd) (return ()) fun _ => setfd fd true

/-- The loop body that moves an end of the pipe out of the way of the standard streams. -/
def relocate (fd : Nat) : Sys (Except IoError Nat) :=
  if fd < 3 then
    attempt (dupfd fd) (return ()) fun relocated => do
      close fd
      return .ok relocated
  else return .ok fd

/-- Closes the descriptors in turn. -/
def closeAll : List Nat → Sys Unit
  | [] => return ()
  | fd :: rest => do
      close fd
      closeAll rest

/-- The reader thread is spawned, with its slot of the budget. -/
def spawnReader (pipe readFd : Nat) : Sys (Except IoError Unit) := do
  match ← turn with
  | some error => return .error error
  | none =>
      modify fun w => { w with
        readers := { pipe, readFd := some readFd, stop := false } :: w.readers }
      return .ok ()

namespace StreamCapture

/-- The part of `StreamCapture::new` that follows `dup2`. -/
def start (fd dupFd reader readFd writeFd : Nat) (targetFlags : Bool) :
    Sys (Except IoError StreamCapture) :=
  -- dup2 has cleared the flag of the target
  attempt (setCloexec fd)
    (do restoreOrAbort fd dupFd targetFlags; closeAll [dupFd, readFd, writeFd]; releaseBudget)
    fun () => do
  close writeFd
  attempt (spawnReader reader readFd)
    (do releaseBudget; restoreOrAbort fd dupFd targetFlags; closeAll [dupFd, readFd])
    fun () =>
  return .ok { target := fd, saved := some dupFd, targetFlags, reader, flushError := none }

/-- `StreamCapture::new`; the caller's `SavedFd` is consumed. -/
def new (fd dupFd : Nat) : Sys (Except IoError StreamCapture) :=
  attempt (getfd fd) (close dupFd) fun targetFlags =>
  attempt reserveCaptureReader (close dupFd) fun () =>
  attempt pipe (do close dupFd; releaseBudget) fun (reader, fds0, fds1) =>
  attempt (relocate fds0) (do closeAll [fds0, fds1, dupFd]; releaseBudget) fun readFd =>
  attempt (relocate fds1) (do closeAll [readFd, fds1, dupFd]; releaseBudget) fun writeFd =>
  attempt (attempt (setCloexec readFd) (return ()) fun () => setCloexec writeFd)
    (do closeAll [readFd, writeFd, dupFd]; releaseBudget) fun () =>
  attempt (dup2 writeFd fd) (do closeAll [dupFd, readFd, writeFd]; releaseBudget) fun () =>
  start fd dupFd reader readFd writeFd targetFlags

/-- `StreamCapture::restore`. -/
def restore (stream : StreamCapture) : Sys StreamCapture := do
  match stream.saved with
  | none => return stream
  | some saved =>
      let flushed ← flush
      restoreOrAbort stream.target saved stream.targetFlags
      close saved
      return { stream with
        saved := none
        flushError := match flushed with
          | .ok () => none
          | .error error => some error }

/-- The drop of a `StreamCapture`: a capture that was not restored is, and the reader is told to
stop. -/
def drop (stream : StreamCapture) : Sys Unit := do
  let _ ← stream.restore
  modify fun w => { w with
    readers := w.readers.map fun r =>
      if r.pipe = stream.reader then { r with stop := true } else r }

/-- `StreamCapture::collect`, which consumes the capture; `blocks` is what `collect_blocks`
returns. -/
def collect (stream : StreamCapture) (blocks : Except IoError (List UInt8 × Bool)) :
    Sys (Except IoError (List UInt8 × Bool)) := do
  stream.drop
  return blocks.bind fun collected =>
    match stream.flushError with
    | some error => .error error
    | none => .ok collected

end StreamCapture

/-! ### `OutputCapture` -/

/-- An `OutputCapture`, and a `PendingCapture`. -/
structure OutputCapture where
  stdout : Option StreamCapture
  stderr : Option StreamCapture
  deriving Repr, DecidableEq

/-- A call made only for a stream that is captured. -/
def whenCaptured {α : Type} (captured : Bool) (call : Sys (Except IoError α)) :
    Sys (Except IoError (Option α)) :=
  if captured then attempt call (return ()) fun value => return .ok (some value)
  else return .ok none

/-- The drop of an `Option<SavedFd>`. -/
def dropSaved : Option Nat → Sys Unit
  | none => return ()
  | some fd => close fd

/-- The drop of an `Option<StreamCapture>`. -/
def dropStream : Option StreamCapture → Sys Unit
  | none => return ()
  | some stream => stream.drop

/-- `StreamCapture::new` for a stream whose descriptor was saved. -/
def newStream (fd : Nat) : Option Nat → Sys (Except IoError (Option StreamCapture))
  | none => return .ok none
  | some dupFd => attempt (StreamCapture.new fd dupFd) (return ()) fun stream =>
      return .ok (some stream)

namespace OutputCapture

/-- `OutputCapture::new`. -/
def new (captureStdout captureStderr : Bool) : Sys (Except IoError OutputCapture) :=
  attempt (whenCaptured captureStdout flush) (return ()) fun _ =>
  attempt (whenCaptured captureStderr flush) (return ()) fun _ =>
  attempt (whenCaptured captureStdout (dupfd 1)) (return ()) fun savedStdout =>
  attempt (whenCaptured captureStderr (dupfd 2)) (dropSaved savedStdout) fun savedStderr =>
  attempt (newStream 1 savedStdout) (dropSaved savedStderr) fun stdout =>
  attempt (newStream 2 savedStderr) (dropStream stdout) fun stderr =>
  return .ok { stdout, stderr }

/-- The drop of an `OutputCapture`. -/
def drop (capture : OutputCapture) : Sys Unit := do
  dropStream capture.stdout
  dropStream capture.stderr

/-- What `restore` does with one stream. -/
def restoreStream : Option StreamCapture → Sys (Option StreamCapture)
  | none => return none
  | some stream => do
      let restored ← stream.restore
      return some restored

/-- `OutputCapture::restore`. -/
def restore (capture : OutputCapture) : Sys OutputCapture := do
  let stdout ← restoreStream capture.stdout
  let stderr ← restoreStream capture.stderr
  return { stdout, stderr }

/-- What `collect` does with one stream. -/
def collectStream (stream : Option StreamCapture) (blocks : Except IoError (List UInt8 × Bool)) :
    Sys (Except IoError (List UInt8 × Bool)) :=
  match stream with
  | none => return .ok ([], false)
  | some stream => stream.collect blocks

/-- `PendingCapture::collect`. -/
def collect (pending : OutputCapture) (outBlocks errBlocks : Except IoError (List UInt8 × Bool)) :
    Sys (Except IoError (List UInt8 × List UInt8 × Bool)) := do
  let stdout ← collectStream pending.stdout outBlocks
  let stderr ← collectStream pending.stderr errBlocks
  match stdout, stderr with
  | .error error, _ => return .error error
  | .ok _, .error error => return .error error
  | .ok (stdout, truncStdout), .ok (stderr, truncStderr) =>
      return .ok (stdout, stderr, truncStdout || truncStderr)

end OutputCapture

/-- A captured run: it is set up, the script runs, and the streams are restored and collected;
where the script panics the capture is dropped. -/
def capturedRun (captureStdout captureStderr panics : Bool)
    (outBlocks errBlocks : Except IoError (List UInt8 × Bool)) :
    Sys (Except IoError (Option (List UInt8 × List UInt8 × Bool))) :=
  attempt (OutputCapture.new captureStdout captureStderr) (return ()) fun capture => do
    let _ ← turn
    if panics then
      capture.drop
      return .ok none
    else
      let pending ← capture.restore
      let collected ← pending.collect outBlocks errBlocks
      return collected.map some

end Libdeno.Output.Redirect
