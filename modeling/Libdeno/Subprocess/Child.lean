import Libdeno.Library.Hoare
import Libdeno.Supervisor.TerminalMapping

/-!
# Libdeno.Subprocess.Child

A child process and the calls its parent makes: `Child::kill`, `wait` and `try_wait`, each of
which may fail, and between which the child may end on its own. One lemma a call says what it
leaves behind; `Accounted` is what every way out of a run must establish: no child was spawned,
or it was reaped, or the system refused to wait for it.
-/

namespace Libdeno.Subprocess

open Hoare Supervisor

/-- `ExitStatus`: its code, if the child was not killed by a signal, and its text. -/
structure ExitStatus where
  code : Option Int32
  text : String
  deriving Repr, DecidableEq

/-- A child process, from its spawn on. -/
inductive Child
  | running
  /-- It has ended, and nobody has waited for it: a zombie. -/
  | ended (status : ExitStatus)
  | reaped (status : ExitStatus)
  deriving Repr, DecidableEq

/-- What a writer thread comes to: it sends the result of its write, or is gone without. -/
inductive WriterEnd
  | sent (result : Except IoError Unit)
  | lost
  deriving Repr, DecidableEq

/-- The thread that writes the request to the child's stdin. -/
inductive Writer
  | none
  | blocked
  | finished (how : WriterEnd)
  deriving Repr, DecidableEq

/-- One call of the system: what happens before it, and whether it fails. -/
structure Turn where
  /-- The child ends before the call; where the call waits for it, it ends then. -/
  ends : Bool
  status : ExitStatus
  /-- The writer thread ends before the call. -/
  writer : Option WriterEnd
  fault : Option IoError
  deriving Repr, DecidableEq

/-- The parent, its child and the writer of the request. -/
structure World where
  child : Option Child
  writer : Writer
  /-- `ACTIVE_HANDSHAKE_WRITERS`. -/
  active : Nat
  /-- A call that waits for the child has failed; no part of the program. -/
  waitFailed : Bool
  script : List Turn
  deriving Repr, DecidableEq

abbrev Sys (α : Type) := Program Empty World α

/-- A call beyond the script: nothing happens before it, and it does not fail. -/
def Turn.last : Turn where
  ends := false
  status := { code := none, text := "signal: 9 (SIGKILL)" }
  writer := none
  fault := none

/-- A child ends on its own. -/
def Child.endsIf (child : Child) (turn : Turn) : Child :=
  match child with
  | .running => if turn.ends then .ended turn.status else .running
  | child => child

/-- The writer ends: the handle of the child's stdin and the slot of the budget are given up. -/
def World.writerEnds (w : World) (how : WriterEnd) : World :=
  match w.writer with
  | .blocked => { w with writer := .finished how, active := w.active - 1 }
  | _ => w

/-- What happens before a call. -/
def World.passes (w : World) (turn : Turn) : World :=
  let w := { w with child := w.child.map (·.endsIf turn) }
  match turn.writer with
  | some how => w.writerEnds how
  | none => w

/-- The next turn of the script. -/
def turn : Sys Turn := do
  let w ← get
  match w.script with
  | [] => return .last
  | t :: rest =>
      set (({ w with script := rest } : World).passes t)
      return t

/-- The error of a call for a child that is not there. -/
def noChild : IoError := { kind := .other, message := "no child process" }

/-- `Child::kill`. -/
def kill : Sys (Except IoError Unit) := do
  let t ← turn
  match t.fault with
  | some error => return .error error
  | none =>
      modify fun w => { w with child := w.child.map fun
        | .running => .ended { code := none, text := "signal: 9 (SIGKILL)" }
        | child => child }
      return .ok ()

/-- `Child::wait`: it returns once the child has ended. -/
def wait : Sys (Except IoError ExitStatus) := do
  let t ← turn
  match t.fault with
  | some error =>
      modify fun w => { w with waitFailed := true }
      return .error error
  | none =>
      let w ← get
      match w.child with
      | none => return .error noChild
      | some child =>
          let status := match child with
            | .running => t.status
            | .ended status | .reaped status => status
          set { w with child := some (.reaped status) }
          return .ok status

/-- `Child::try_wait`. -/
def tryWait : Sys (Except IoError (Option ExitStatus)) := do
  let t ← turn
  match t.fault with
  | some error => return .error error
  | none =>
      let w ← get
      match w.child with
      | some (.ended status) | some (.reaped status) =>
          set { w with child := some (.reaped status) }
          return .ok (some status)
      | _ => return .ok none

/-- `Command::spawn`. -/
def spawn : Sys (Except IoError Unit) := do
  let t ← turn
  match t.fault with
  | some error => return .error error
  | none =>
      modify fun w => { w with child := some .running }
      return .ok ()

/-! ### What the calls leave behind -/

/-- Nothing gives up the parent. -/
def Never : Empty → Prop := fun _ => False

/-- No child was spawned, or it was reaped, or the system refused to wait for it. -/
def Accounted (w : World) : Prop :=
  w.child = none ∨ (∃ status, w.child = some (.reaped status)) ∨ w.waitFailed = true

/-- An assertion that is not about the child. -/
structure Framed (P : World → Prop) : Prop where
  passes : ∀ w t, P w → P (w.passes t)
  script : ∀ w rest, P w → P { w with script := rest }
  child : ∀ w child, P w → P { w with child }
  waitFailed : ∀ w, P w → P { w with waitFailed := true }

/-- There is a child. -/
def Spawned (w : World) : Prop := w.child ≠ none

theorem passes_child (w : World) (t : Turn) :
    (w.passes t).child = w.child.map (·.endsIf t) := by
  unfold World.passes World.writerEnds
  cases t.writer with
  | none => rfl
  | some how =>
      dsimp only
      split <;> rfl

theorem passes_waitFailed (w : World) (t : Turn) : (w.passes t).waitFailed = w.waitFailed := by
  unfold World.passes World.writerEnds
  cases t.writer with
  | none => rfl
  | some how =>
      dsimp only
      split <;> rfl

/-- What the other threads and the child itself leave true. -/
structure Stable (P : World → Prop) : Prop where
  passes : ∀ w t, P w → P (w.passes t)
  script : ∀ w rest, P w → P { w with script := rest }

theorem Stable.turn {P : World → Prop} (stable : Stable P) :
    Ensures Never P turn fun _ => P := by
  refine (Ensures.get (Q := fun seen w => P w ∧ seen = w) fun w hw => ⟨hw, rfl⟩).bind
    fun seen => ?_
  cases hscript : seen.script with
  | nil => exact .pure fun w hw => hw.1
  | cons t rest =>
      refine Ensures.bind (Q := fun _ => P) (.set fun w hw => ?_) fun _ => .pure fun w hw => hw
      obtain ⟨hw, rfl⟩ := hw
      exact stable.passes _ t (stable.script _ rest hw)

section Frame

variable {P : World → Prop}

theorem Framed.stable (framed : Framed P) : Stable P := ⟨framed.passes, framed.script⟩

theorem Framed.kill (framed : Framed P) : Ensures Never P kill fun _ => P := by
  refine framed.stable.turn.bind fun t => ?_
  cases t.fault with
  | some error => exact .pure fun w hw => hw
  | none =>
      exact Ensures.bind (Q := fun _ => P) (.modify fun w hw => framed.child w _ hw)
        fun _ => .pure fun w hw => hw

theorem Framed.wait (framed : Framed P) : Ensures Never P wait fun _ => P := by
  refine framed.stable.turn.bind fun t => ?_
  cases t.fault with
  | some error =>
      exact Ensures.bind (Q := fun _ => P) (.modify fun w hw => framed.waitFailed w hw)
        fun _ => .pure fun w hw => hw
  | none =>
      refine (Ensures.get (Q := fun seen w => P w ∧ seen = w) fun w hw => ⟨hw, rfl⟩).bind
        fun seen => ?_
      cases hchild : seen.child with
      | none => exact .pure fun w hw => hw.1
      | some child =>
          refine Ensures.bind (Q := fun _ => P) (.set fun w hw => ?_) fun _ => .pure fun w hw => hw
          obtain ⟨hw, rfl⟩ := hw
          exact framed.child seen _ hw

theorem Framed.tryWait (framed : Framed P) : Ensures Never P tryWait fun _ => P := by
  refine framed.stable.turn.bind fun t => ?_
  cases t.fault with
  | some error => exact .pure fun w hw => hw
  | none =>
      refine (Ensures.get (Q := fun seen w => P w ∧ seen = w) fun w hw => ⟨hw, rfl⟩).bind
        fun seen => ?_
      have hnone : Ensures Never (fun w => P w ∧ seen = w)
          (return .ok none : Sys (Except IoError (Option ExitStatus))) fun _ => P :=
        .pure fun w hw => hw.1
      have hset : ∀ status, Ensures Never (fun w => P w ∧ seen = w) (do
          MonadState.set { seen with child := some (.reaped status) }
          return .ok (some status) : Sys (Except IoError (Option ExitStatus))) fun _ => P := by
        intro status
        refine Ensures.bind (Q := fun _ => P) (.set fun w hw => ?_) fun _ => .pure fun w hw => hw
        obtain ⟨hw, rfl⟩ := hw
        exact framed.child seen _ hw
      rcases hchild : seen.child with - | child
      · exact hnone
      · cases child with
        | running => exact hnone
        | ended status => exact hset status
        | reaped status => exact hset status

theorem Framed.spawn (framed : Framed P) : Ensures Never P spawn fun _ => P := by
  refine framed.stable.turn.bind fun t => ?_
  cases t.fault with
  | some error => exact .pure fun w hw => hw
  | none =>
      exact Ensures.bind (Q := fun _ => P) (.modify fun w hw => framed.child w _ hw)
        fun _ => .pure fun w hw => hw

end Frame

theorem spawned_stable : Stable Spawned where
  passes w t hw := by
    rw [Spawned, passes_child]
    simpa [Spawned] using hw
  script w rest hw := hw

theorem accounted_stable : Stable Accounted where
  passes w t hw := by
    rw [Accounted, passes_child, passes_waitFailed]
    rcases hw with hnone | ⟨status, hreaped⟩ | hfailed
    · exact .inl (by rw [hnone]; rfl)
    · exact .inr (.inl ⟨status, by rw [hreaped]; rfl⟩)
    · exact .inr (.inr hfailed)
  script w rest hw := hw

/-- The child was reaped with this status. -/
def ReapedWith (status : ExitStatus) (w : World) : Prop := w.child = some (.reaped status)

theorem ReapedWith.accounted {status : ExitStatus} {w : World} (h : ReapedWith status w) :
    Accounted w := .inr (.inl ⟨status, h⟩)

theorem kill_spec : Ensures Never Spawned kill fun _ => Spawned := by
  refine spawned_stable.turn.bind fun t => ?_
  cases t.fault with
  | some error => exact .pure fun w hw => hw
  | none =>
      refine Ensures.bind (Q := fun _ => Spawned) (.modify fun w hw => ?_)
        fun _ => .pure fun w hw => hw
      simpa [Spawned] using hw

/-- A child that was waited for is reaped. -/
theorem wait_spec : Ensures Never Spawned wait fun answer w => match answer with
    | .ok status => ReapedWith status w
    | .error _ => Spawned w ∧ w.waitFailed = true := by
  refine spawned_stable.turn.bind fun t => ?_
  cases t.fault with
  | some error =>
      exact Ensures.bind (Q := fun _ w => Spawned w ∧ w.waitFailed = true)
        (.modify fun _ hw => ⟨hw, rfl⟩) fun _ => .pure fun w hw => hw
  | none =>
      refine (Ensures.get (Q := fun seen w => Spawned w ∧ seen = w) fun w hw => ⟨hw, rfl⟩).bind
        fun seen => ?_
      cases hchild : seen.child with
      | none =>
          intro w hw
          obtain ⟨hw, rfl⟩ := hw
          exact absurd hchild hw
      | some child =>
          exact Ensures.bind (Q := fun _ => ReapedWith _) (.set fun w _ => rfl)
            fun _ => .pure fun w hw => hw

theorem ReapedWith.spawned {status : ExitStatus} {w : World} (h : ReapedWith status w) :
    Spawned w := by
  rw [Spawned, h]
  nofun

theorem wait_accounts : Ensures Never Spawned wait fun _ w => Accounted w ∧ Spawned w :=
  wait_spec.weaken fun answer w hw => by
    cases answer with
    | ok status => exact ⟨ReapedWith.accounted hw, ReapedWith.spawned hw⟩
    | error _ => exact ⟨.inr (.inr hw.2), hw.1⟩

theorem tryWait_spec : Ensures Never Spawned tryWait fun answer w => match answer with
    | .ok (some status) => ReapedWith status w
    | .ok none | .error _ => Spawned w := by
  refine spawned_stable.turn.bind fun t => ?_
  cases t.fault with
  | some error => exact .pure fun w hw => hw
  | none =>
      refine (Ensures.get (Q := fun seen w => Spawned w ∧ seen = w) fun w hw => ⟨hw, rfl⟩).bind
        fun seen => ?_
      have hnone : Ensures Never (fun w => Spawned w ∧ seen = w)
          (return .ok none : Sys (Except IoError (Option ExitStatus))) fun answer w =>
          match answer with
            | .ok (some status) => ReapedWith status w
            | .ok none | .error _ => Spawned w := .pure fun w hw => hw.1
      cases hchild : seen.child with
      | none => exact hnone
      | some child =>
          cases child with
          | running => exact hnone
          | ended status =>
              exact Ensures.bind (Q := fun _ => ReapedWith status) (.set fun w _ => rfl)
                fun _ => .pure fun w hw => hw
          | reaped status =>
              exact Ensures.bind (Q := fun _ => ReapedWith status) (.set fun w _ => rfl)
                fun _ => .pure fun w hw => hw

/-- The cleanup of the early returns: `let _ = child.kill(); let _ = child.wait();`. -/
def killAndWait : Sys Unit := do
  let _ ← kill
  let _ ← wait
  return ()

theorem Framed.killAndWait {P : World → Prop} (framed : Framed P) :
    Ensures Never P killAndWait fun _ => P :=
  framed.kill.bind fun _ => framed.wait.bind fun _ => .pure fun _ hw => hw

theorem killAndWait_spec : Ensures Never Spawned killAndWait fun _ => Accounted :=
  kill_spec.bind fun _ => wait_accounts.bind fun _ => .pure fun _ hw => hw.1

theorem spawn_spec : Ensures Never (fun w => w.child = none) spawn fun answer w =>
    match answer with
    | .ok () => Spawned w
    | .error _ => w.child = none := by
  have stable : Stable fun w => w.child = none := ⟨fun w t hw => by
    rw [passes_child, hw]
    rfl, fun w rest hw => hw⟩
  refine stable.turn.bind fun t => ?_
  cases t.fault with
  | some error => exact .pure fun w hw => hw
  | none =>
      exact Ensures.bind (Q := fun _ => Spawned) (.modify fun w _ => nofun)
        fun _ => .pure fun w hw => hw

end Libdeno.Subprocess
