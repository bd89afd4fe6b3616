import Libdeno.Library.Pool
import Libdeno.Library.Transition
import Libdeno.Supervisor.TerminalMapping

/-!
# Libdeno.Broker.Install

`install_permission_broker` and `install_permission_hook` (permission_broker.rs): any number of
threads install, and each step is a call of the system or a section of the crates involved. Every
call may fail; connecting may end the process; and code that does not go through here may set a
broker of its own at any time (`upstream`), on which `set_broker` panics.

One installer is inside at a time, and at most one ever sets a broker, which stays. Whatever way
an installer leaves, it gives back the lock and the run lease and removes its directory, if the
system lets it; and a thread of a hook serves only if its hook is the broker, and has ended
otherwise (`install_settles`).
-/

namespace Libdeno.Broker.Install

open Supervisor

/-! ### The installers -/

/-- Which of the two is installed. -/
inductive Kind
  | external
  | hook
  deriving Repr, DecidableEq

/-- Who decides; a hook has the number of its thread. -/
inductive Authority
  | external
  | hook (worker : Nat)
  /-- A broker that was set by other code. -/
  | upstream
  deriving Repr, DecidableEq

/-- The channel a hook's thread waits on. -/
inductive Start
  | pending
  | sent
  | dropped
  deriving Repr, DecidableEq

/-- Where a hook's thread is. -/
inductive Phase
  | waiting
  | serving
  | gone
  deriving Repr, DecidableEq

structure Worker where
  start : Start
  phase : Phase
  deriving Repr, DecidableEq

/-- How an installer leaves. -/
inductive Outcome
  | ok
  | error (error : LibdenoError)
  | panicked
  deriving Repr, DecidableEq

/-- What the threads of the process share. -/
structure Memory where
  /-- `INSTALL_LOCK`. -/
  installLock : Bool
  /-- The exclusive run leases. -/
  leases : Nat
  broker : Option Authority
  workers : List Worker
  /-- The directories of hooks, and those of them the system did not remove. -/
  dirs : Multiset String
  refused : Multiset String
  exited : Bool

/-- Nothing was installed. -/
def Memory.initial : Memory where
  installLock := false
  leases := 0
  broker := none
  workers := []
  dirs := 0
  refused := 0
  exited := false

/-- The directory of a hook, and the number of its thread. -/
abbrev Hook := String × Nat

/-- What a second install is told. -/
def alreadyInstalled : Kind → LibdenoError
  | .external => .permission
      "a permission broker is already installed; it can only be installed once per process"
  | .hook => .permission ("a permission broker is already installed; install_permission_broker " ++
      "and install_permission_hook are mutually exclusive and both install-once")

/-- `socket_dir`. -/
def socketDir (tempDir suffix : String) : String := tempDir ++ "/libdeno-hook-" ++ suffix

/-- `socket_path`. -/
def socketPath (dir : String) : String := dir ++ "/h.sock"

def dirFailed (dir : String) (error : IoError) : LibdenoError :=
  .permission s!"failed to create hook socket dir {dir}: {error.message}"

def bindFailed (dir : String) (error : IoError) : LibdenoError :=
  .permission s!"failed to bind hook socket {socketPath dir}: {error.message}"

def acceptFailed (error : IoError) : LibdenoError :=
  .permission s!"failed to accept hook broker connection: {error.message}"

/-- Where an installer stands. -/
inductive Pc
  | call (kind : Kind)
  | locked (kind : Kind)
  /-- `has_broker` said no. -/
  | unset (kind : Kind)
  | leased (kind : Kind)
  /-- The directory is there, and goes with its guard. -/
  | made (dir : String)
  | bound (dir : String)
  | connected (dir : String)
  | accepted (dir : String)
  /-- Before `set_broker`. -/
  | ready (hook : Option Hook)
  /-- Behind it, before `commit`. -/
  | set (hook : Option Hook)
  /-- It has panicked. -/
  | unwinding (hook : Option Hook)
  /-- The thread's channel is dropped, and the thread is joined. -/
  | joining (hook : Hook)
  | cleaning (dir : String) (outcome : Outcome)
  | releasing (outcome : Outcome)
  | unlocking (outcome : Outcome)
  | returned (outcome : Outcome)
  deriving Repr, DecidableEq

/-- The broker that is set. -/
def authority : Option Hook → Authority
  | none => .external
  | some hook => .hook hook.2

/-- One step of an installer. -/
inductive InstallStep (m : Memory) : Pc → Memory → Pc → List Pc → Prop
  | lock {kind : Kind} : m.installLock = false →
      InstallStep m (.call kind) { m with installLock := true } (.locked kind) []
  | installed {kind : Kind} : m.broker ≠ none →
      InstallStep m (.locked kind) m (.unlocking (.error (alreadyInstalled kind))) []
  | absent {kind : Kind} : m.broker = none →
      InstallStep m (.locked kind) m (.unset kind) []
  /-- `acquire_broker_install` fails: a run, a worker or a capture is there. -/
  | busy {kind : Kind} (error : LibdenoError) :
      InstallStep m (.unset kind) m (.unlocking (.error error)) []
  | lease {kind : Kind} :
      InstallStep m (.unset kind) { m with leases := m.leases + 1 } (.leased kind) []
  /-- `PermissionBroker::new` cannot connect: `process::exit(87)`. -/
  | exits : InstallStep m (.leased .external) { m with exited := true } (.leased .external) []
  | connect : InstallStep m (.leased .external) m (.ready none) []
  | noSuffix (error : String) :
      InstallStep m (.leased .hook) m (.releasing (.error (.runtime error false))) []
  | noDir (dir : String) (error : IoError) :
      InstallStep m (.leased .hook) m (.releasing (.error (dirFailed dir error))) []
  | make (tempDir suffix : String) : socketDir tempDir suffix ∉ m.dirs →
      InstallStep m (.leased .hook) { m with dirs := socketDir tempDir suffix ::ₘ m.dirs }
        (.made (socketDir tempDir suffix)) []
  | noBind {dir : String} (error : IoError) :
      InstallStep m (.made dir) m (.cleaning dir (.error (bindFailed dir error))) []
  | bind {dir : String} : InstallStep m (.made dir) m (.bound dir) []
  | hookExits {dir : String} :
      InstallStep m (.bound dir) { m with exited := true } (.bound dir) []
  | connectHook {dir : String} : InstallStep m (.bound dir) m (.connected dir) []
  | noAccept {dir : String} (error : IoError) :
      InstallStep m (.connected dir) m (.cleaning dir (.error (acceptFailed error))) []
  | accept {dir : String} : InstallStep m (.connected dir) m (.accepted dir) []
  | noThread {dir : String} (error : IoError) :
      InstallStep m (.accepted dir) m (.cleaning dir (.error (.io error))) []
  | spawn {dir : String} :
      InstallStep m (.accepted dir)
        { m with workers := m.workers ++ [{ start := .pending, phase := .waiting }] }
        (.ready (some (dir, m.workers.length))) []
  | set {hook : Option Hook} : m.broker = none →
      InstallStep m (.ready hook) { m with broker := some (authority hook) } (.set hook) []
  /-- The assertion of `set_broker` fails. -/
  | panics {hook : Option Hook} : m.broker ≠ none →
      InstallStep m (.ready hook) m (.unwinding hook) []
  | done : InstallStep m (.set none) m (.releasing .ok) []
  | commit {dir : String} {n : Nat} {w : Worker} : m.workers[n]? = some w → w.phase ≠ .gone →
      InstallStep m (.set (some (dir, n)))
        { m with workers := m.workers.set n { w with start := .sent } } (.cleaning dir .ok) []
  /-- `send(()).unwrap()` panics where the thread is gone. -/
  | lost {dir : String} {n : Nat} {w : Worker} : m.workers[n]? = some w → w.phase = .gone →
      InstallStep m (.set (some (dir, n))) m (.joining (dir, n)) []
  | unwind : InstallStep m (.unwinding none) m (.releasing .panicked) []
  | drop {dir : String} {n : Nat} {w : Worker} : m.workers[n]? = some w →
      InstallStep m (.unwinding (some (dir, n)))
        { m with workers := m.workers.set n { w with start := .dropped } } (.joining (dir, n)) []
  | joined {dir : String} {n : Nat} {w : Worker} : m.workers[n]? = some w → w.phase = .gone →
      InstallStep m (.joining (dir, n)) m (.cleaning dir .panicked) []
  | clean {dir : String} {outcome : Outcome} :
      InstallStep m (.cleaning dir outcome) { m with dirs := m.dirs.erase dir }
        (.releasing outcome) []
  /-- The system does not remove the directory. -/
  | litter {dir : String} {outcome : Outcome} :
      InstallStep m (.cleaning dir outcome) { m with refused := dir ::ₘ m.refused }
        (.releasing outcome) []
  | release {outcome : Outcome} :
      InstallStep m (.releasing outcome) { m with leases := m.leases - 1 }
        (.unlocking outcome) []
  | unlock {outcome : Outcome} :
      InstallStep m (.unlocking outcome) { m with installLock := false } (.returned outcome) []

/-- What else happens: an install is called, other code sets a broker, and the threads of hooks
go on. -/
inductive OtherStep (m : Memory) : Memory → List Pc → Prop
  | call (kind : Kind) : OtherStep m m [.call kind]
  | upstream : m.broker = none → OtherStep m { m with broker := some .upstream } []
  | serves {n : Nat} : m.workers[n]? = some { start := .sent, phase := .waiting } →
      OtherStep m { m with workers := m.workers.set n { start := .sent, phase := .serving } } []
  /-- `recv` fails. -/
  | sentAway {n : Nat} : m.workers[n]? = some { start := .dropped, phase := .waiting } →
      OtherStep m { m with workers := m.workers.set n { start := .dropped, phase := .gone } } []
  /-- `serve_broker_connection` returns. -/
  | ends {n : Nat} : m.workers[n]? = some { start := .sent, phase := .serving } →
      OtherStep m { m with workers := m.workers.set n { start := .sent, phase := .gone } } []

/-- The process and its installers. -/
abbrev System := Pool Memory Pc

/-- One step, while the process is there. -/
def SystemStep (s s' : System) : Prop :=
  s.memory.exited = false ∧ Pool.Step InstallStep OtherStep s s'

def System.Initial (s : System) : Prop := s = ⟨.initial, []⟩

/-! ### What an installer holds -/

/-- It has `INSTALL_LOCK`. -/
def Pc.locks : Pc → Bool
  | .call _ | .returned _ => false
  | _ => true

/-- It has the run lease. -/
def Pc.leases : Pc → Bool
  | .call _ | .locked _ | .unset _ | .unlocking _ | .returned _ => false
  | _ => true

/-- The directory it has to remove. -/
def Pc.dirs : Pc → Multiset String
  | .made dir | .bound dir | .connected dir | .accepted dir | .cleaning dir _ => {dir}
  | .ready (some hook) | .set (some hook) | .unwinding (some hook) | .joining hook => {hook.1}
  | _ => 0

variable {m m' : Memory} {t t' : Pc} {spawned : List Pc}

/-- The lock is held by the one that has it. -/
theorem InstallStep.lock_count (step : InstallStep m t m' t' spawned) {rest : Nat}
    (inv : t.locks.toNat + rest = m.installLock.toNat) :
    t'.locks.toNat + Pool.tally (fun t : Pc => t.locks.toNat) spawned + rest =
      m'.installLock.toNat := by
  cases step with
  | unlock =>
      have hle := Bool.toNat_le m.installLock
      simp [Pc.locks] at inv ⊢
      omega
  | _ => simp_all [Pc.locks]

/-- The lease is held by the ones that have it. -/
theorem InstallStep.lease_count (step : InstallStep m t m' t' spawned) {rest : Nat}
    (inv : t.leases.toNat + rest = m.leases) :
    t'.leases.toNat + Pool.tally (fun t : Pc => t.leases.toNat) spawned + rest = m'.leases := by
  cases step <;> simp [Pc.leases] at inv ⊢ <;> omega

/-- Each directory has one that removes it, or could not be removed. -/
theorem InstallStep.dir_count (step : InstallStep m t m' t' spawned) {rest : Multiset String}
    (inv : m.dirs = t.dirs + rest + m.refused) :
    m'.dirs = t'.dirs + Pool.tally Pc.dirs spawned + rest + m'.refused := by
  cases step with
  | make tempDir suffix hfresh => simp_all [Pc.dirs]
  | clean => simp_all [Pc.dirs]
  | litter => simp_all [Pc.dirs]
  | @connect => simpa [Pc.dirs] using inv
  | @set hook _ => cases hook <;> simpa [Pc.dirs] using inv
  | @panics hook _ => cases hook <;> simpa [Pc.dirs] using inv
  | _ => simpa [Pc.dirs] using inv

/-! ### What an installer knows -/

/-- The thread it has to start or to join. -/
def Pc.guard? : Pc → Option Nat
  | .ready (some hook) | .set (some hook) | .unwinding (some hook) | .joining hook => some hook.2
  | _ => none

/-- A thread that waits for its installer. -/
def Fresh (m : Memory) : Option Hook → Prop
  | none => True
  | some hook => m.workers[hook.2]? = some { start := .pending, phase := .waiting }

/-- What an outcome says of the broker. -/
def Outcome.Tells (broker : Option Authority) : Outcome → Prop
  | .ok => ∃ b, broker = some b ∧ b ≠ .upstream
  | .error _ => True
  | .panicked => broker = some .upstream

/-- Nobody that installs has set a broker. -/
def Unset (m : Memory) : Prop := m.broker = none ∨ m.broker = some .upstream

/-- What an installer knows where it stands. -/
def Pc.Known (m : Memory) : Pc → Prop
  | .call _ | .locked _ => True
  | .unset _ | .leased _ | .made _ | .bound _ | .connected _ | .accepted _ => Unset m
  | .ready hook => Unset m ∧ Fresh m hook
  | .set hook => m.broker = some (authority hook) ∧ Fresh m hook
  | .unwinding hook => m.broker = some .upstream ∧ Fresh m hook
  | .joining _ => m.broker = some .upstream
  | .cleaning _ outcome | .releasing outcome | .unlocking outcome | .returned outcome =>
      outcome.Tells m.broker

theorem authority_ne (hook : Option Hook) : authority hook ≠ .upstream := by
  cases hook <;> simp [authority]

/-- A step keeps what its installer knows. -/
theorem InstallStep.known (step : InstallStep m t m' t' spawned) (h : t.Known m) :
    t'.Known m' := by
  cases step with
  | absent hnone => exact .inl hnone
  | connect => exact ⟨h, trivial⟩
  | spawn => exact ⟨h, by simp [Fresh]⟩
  | set hnone => exact ⟨rfl, h.2⟩
  | panics hsome => exact ⟨h.1.resolve_left hsome, h.2⟩
  | done => exact ⟨_, h.1, authority_ne none⟩
  | commit hget hphase => exact ⟨_, h.1, authority_ne _⟩
  | lost hget hgone =>
      -- the thread of a hook that was set still waits
      have hfresh := h.2
      rw [Fresh, hget] at hfresh
      cases hfresh
      cases hgone
  | unwind => exact h.1
  | drop hget => exact h.1
  | lock hfree => trivial
  | installed hsome => trivial
  | busy error => trivial
  | noSuffix error => trivial
  | noDir dir error => trivial
  | noBind error => trivial
  | noAccept error => trivial
  | noThread error => trivial
  | _ => exact h

/-- A broker stays. -/
theorem InstallStep.broker (step : InstallStep m t m' t' spawned) {b : Authority}
    (h : m.broker = some b) : m'.broker = some b := by
  cases step with
  | set hnone =>
      rw [hnone] at h
      cases h
  | _ => exact h

theorem OtherStep.broker (step : OtherStep m m' spawned) {b : Authority}
    (h : m.broker = some b) : m'.broker = some b := by
  cases step with
  | upstream hnone =>
      rw [hnone] at h
      cases h
  | _ => exact h

/-- Without the lock an installer changes nothing but the lock. -/
theorem InstallStep.outside (step : InstallStep m t m' t' spawned) (h : t.locks = false) :
    m'.broker = m.broker ∧ m'.workers = m.workers := by
  cases step <;> first | exact ⟨rfl, rfl⟩ | cases h

theorem Outcome.Tells.stable {outcome : Outcome} {broker broker' : Option Authority}
    (h : outcome.Tells broker) (keeps : ∀ b, broker = some b → broker' = some b) :
    outcome.Tells broker' := by
  cases outcome with
  | ok =>
      obtain ⟨b, hb, hne⟩ := h
      exact ⟨b, keeps b hb, hne⟩
  | error e => trivial
  | panicked => exact keeps _ h

/-- What an installer knows is about the broker and the threads. -/
theorem Pc.Known.congr {u : Pc} (h : u.Known m) (broker : m'.broker = m.broker)
    (workers : m'.workers = m.workers) : u.Known m' := by
  unfold Pc.Known Unset Fresh at h ⊢
  rw [broker, workers]
  exact h

/-- The steps of others leave what an installer knows. -/
theorem InstallStep.known_stable {u : Pc} (step : InstallStep m t m' t' spawned)
    (alone : t.locks = true → u.locks = false) (h : u.Known m) : u.Known m' := by
  cases ht : t.locks with
  | false => exact h.congr (step.outside ht).1 (step.outside ht).2
  | true =>
      have hu := alone ht
      cases u with
      | call kind => trivial
      | returned outcome => exact Outcome.Tells.stable h fun _ => step.broker
      | _ => cases hu

/-- Other code sets a broker only where there is none. -/
theorem Pc.Known.upstream {u : Pc} (h : u.Known m) (hnone : m.broker = none) :
    u.Known { m with broker := some .upstream } := by
  have keeps : ∀ {outcome : Outcome}, outcome.Tells m.broker →
      outcome.Tells (some .upstream) := fun houtcome =>
    houtcome.stable fun b hb => by simp [hnone] at hb
  cases u with
  | call kind => trivial
  | locked kind => trivial
  | unset kind => exact .inr rfl
  | leased kind => exact .inr rfl
  | made dir => exact .inr rfl
  | bound dir => exact .inr rfl
  | connected dir => exact .inr rfl
  | accepted dir => exact .inr rfl
  | ready hook => exact ⟨.inr rfl, h.2⟩
  | set hook => exact absurd h.1 (by simp [hnone])
  | unwinding hook => exact ⟨rfl, h.2⟩
  | joining hook => rfl
  | cleaning dir outcome => exact keeps h
  | releasing outcome => exact keeps h
  | unlocking outcome => exact keeps h
  | returned outcome => exact keeps h

/-- A thread that was started or sent away is not the one an installer waits with. -/
theorem Pc.Known.worker {u : Pc} (h : u.Known m) {n : Nat} {w w' : Worker}
    (hget : m.workers[n]? = some w) (hstart : w.start ≠ .pending) :
    u.Known { m with workers := m.workers.set n w' } := by
  have keeps : ∀ hook, Fresh m hook → Fresh { m with workers := m.workers.set n w' } hook := by
    intro hook hfresh
    cases hook with
    | none => trivial
    | some hook =>
        have hne : n ≠ hook.2 := by
          rintro rfl
          rw [Fresh, hget] at hfresh
          cases hfresh
          exact hstart rfl
        exact (List.getElem?_set_ne hne).trans hfresh
  cases u with
  | ready hook => exact ⟨h.1, keeps hook h.2⟩
  | set hook => exact ⟨h.1, keeps hook h.2⟩
  | unwinding hook => exact ⟨h.1, keeps hook h.2⟩
  | _ => exact h

theorem OtherStep.known_stable {u : Pc} (step : OtherStep m m' spawned) (h : u.Known m) :
    u.Known m' := by
  cases step with
  | call kind => exact h
  | upstream hnone => exact h.upstream hnone
  | serves hget => exact h.worker hget nofun
  | sentAway hget => exact h.worker hget nofun
  | ends hget => exact h.worker hget nofun

/-! ### The threads of hooks -/

/-- A thread that serves was started, and one that was started is the broker's. -/
def Appointed (m : Memory) : Prop :=
  ∀ (n : Nat) (w : Worker), m.workers[n]? = some w →
    (w.phase = .serving → w.start = .sent) ∧ (w.start = .sent → m.broker = some (.hook n))

/-- It is there and was not started. -/
def Worker.Idle (w : Worker) : Prop := w.phase ≠ .gone ∧ w.start ≠ .sent

theorem Appointed.keep (inv : Appointed m) (workers : m'.workers = m.workers)
    (broker : ∀ b, m.broker = some b → m'.broker = some b) : Appointed m' := by
  intro n w hget
  rw [workers] at hget
  exact ⟨(inv n w hget).1, fun hsent => broker _ ((inv n w hget).2 hsent)⟩

/-- One thread changes. -/
theorem Appointed.set (inv : Appointed m) {n : Nat} {w' : Worker}
    (h : (w'.phase = .serving → w'.start = .sent) ∧
      (w'.start = .sent → m.broker = some (.hook n))) :
    Appointed { m with workers := m.workers.set n w' } := by
  intro i w hget
  rw [List.getElem?_set] at hget
  split at hget
  · next heq =>
    subst heq
    split at hget
    · cases hget
      exact h
    · cases hget
  · exact inv i w hget

theorem InstallStep.appointed (step : InstallStep m t m' t' spawned) (known : t.Known m)
    (inv : Appointed m) : Appointed m' := by
  have broker := fun b => step.broker (b := b)
  cases step with
  | @spawn dir =>
      intro n w hget
      rcases Nat.lt_trichotomy n m.workers.length with hlt | rfl | hgt
      · rw [List.getElem?_append_left hlt] at hget
        exact inv n w hget
      · rw [List.getElem?_append_right (Nat.le_refl _), Nat.sub_self] at hget
        cases hget
        exact ⟨fun h => (by cases h), fun h => (by cases h)⟩
      · rw [List.getElem?_eq_none (by simp; omega)] at hget
        cases hget
  | @commit dir n w hget hphase =>
      exact inv.set ⟨fun _ => rfl, fun _ => known.1⟩
  | @drop dir n w hget =>
      have hfresh : m.workers[n]? = _ := known.2
      rw [hget] at hfresh
      cases hfresh
      exact inv.set ⟨fun h => (by cases h), fun h => (by cases h)⟩
  | _ => exact inv.keep rfl broker

theorem OtherStep.appointed (step : OtherStep m m' spawned) (inv : Appointed m) :
    Appointed m' := by
  cases step with
  | call kind => exact inv
  | upstream hnone => exact inv.keep rfl fun b hb => by simp [hnone] at hb
  | serves hget => exact inv.set ⟨fun _ => rfl, fun _ => (inv _ _ hget).2 rfl⟩
  | sentAway hget => exact inv.set ⟨fun h => (by cases h), fun h => (by cases h)⟩
  | ends hget => exact inv.set ⟨fun h => (by cases h), fun _ => (inv _ _ hget).2 rfl⟩

/-- Where a thread is set to one that is not idle, another one is idle. -/
theorem idle_of_set {workers : List Worker} {i n : Nat} {w w' : Worker}
    (hget : (workers.set i w)[n]? = some w') (hw : ¬ w.Idle) (hidle : w'.Idle) :
    i ≠ n ∧ workers[n]? = some w' := by
  rw [List.getElem?_set] at hget
  split at hget
  · split at hget
    · cases hget
      exact absurd hidle hw
    · cases hget
  · next hne => exact ⟨hne, hget⟩

/-- A thread that is idle behind a step was idle before, or is new; and no installer lets go of
an idle thread. -/
theorem InstallStep.idle (step : InstallStep m t m' t' spawned) {n : Nat} {w' : Worker}
    (hget : m'.workers[n]? = some w') (hidle : w'.Idle) :
    t'.guard? = some n ∨ (t.guard? ≠ some n ∧ ∃ w, m.workers[n]? = some w ∧ w.Idle) := by
  have keeps (hworkers : m'.workers = m.workers) (hguard : t'.guard? = t.guard?) :
      t'.guard? = some n ∨ (t.guard? ≠ some n ∧ ∃ w, m.workers[n]? = some w ∧ w.Idle) := by
    rw [hworkers] at hget
    rw [hguard]
    by_cases hn : t.guard? = some n
    · exact .inl hn
    · exact .inr ⟨hn, w', hget, hidle⟩
  cases step with
  | @spawn dir =>
      rcases Nat.lt_trichotomy n m.workers.length with hlt | rfl | hgt
      · rw [List.getElem?_append_left hlt] at hget
        exact .inr ⟨nofun, w', hget, hidle⟩
      · exact .inl rfl
      · rw [List.getElem?_eq_none (by simp; omega)] at hget
        cases hget
  | @commit dir i w hw hphase =>
      obtain ⟨hne, hold⟩ := idle_of_set hget (fun h => h.2 rfl) hidle
      exact .inr ⟨by simpa [Pc.guard?] using hne, w', hold, hidle⟩
  | @drop dir i w hw =>
      rw [List.getElem?_set] at hget
      split at hget
      · next heq => exact .inl (by rw [heq]; rfl)
      · next hne => exact .inr ⟨by simpa [Pc.guard?] using hne, w', hget, hidle⟩
  | @joined dir i w hw hgone =>
      refine .inr ⟨fun heq => ?_, w', hget, hidle⟩
      obtain rfl : i = n := by simpa [Pc.guard?] using heq
      obtain rfl : w = w' := by simpa [hw] using hget
      exact hidle.1 hgone
  | @set hook hnone => exact keeps rfl (by cases hook <;> rfl)
  | @panics hook hsome => exact keeps rfl (by cases hook <;> rfl)
  | _ => exact keeps rfl rfl

theorem OtherStep.idle (step : OtherStep m m' spawned) {n : Nat} {w' : Worker}
    (hget : m'.workers[n]? = some w') (hidle : w'.Idle) :
    ∃ w, m.workers[n]? = some w ∧ w.Idle := by
  cases step with
  | call kind => exact ⟨w', hget, hidle⟩
  | upstream hnone => exact ⟨w', hget, hidle⟩
  | serves hw => exact ⟨w', (idle_of_set hget (fun h => h.2 rfl) hidle).2, hidle⟩
  | sentAway hw => exact ⟨w', (idle_of_set hget (fun h => h.1 rfl) hidle).2, hidle⟩
  | ends hw => exact ⟨w', (idle_of_set hget (fun h => h.1 rfl) hidle).2, hidle⟩

/-! ### The one that installs -/

/-- It has set the broker. -/
def Pc.won : Pc → Bool
  | .set _ | .cleaning _ .ok | .releasing .ok | .unlocking .ok | .returned .ok => true
  | _ => false

/-- The brokers that were set here. -/
def installs : Option Authority → Nat
  | none | some .upstream => 0
  | some _ => 1

theorem InstallStep.win_count (step : InstallStep m t m' t' spawned) {rest : Nat}
    (inv : t.won.toNat + rest ≤ installs m.broker) :
    t'.won.toNat + Pool.tally (fun t : Pc => t.won.toNat) spawned + rest ≤
      installs m'.broker := by
  cases step with
  | @set hook hnone =>
      have hinstalls : installs (some (authority hook)) = 1 := by cases hook <;> rfl
      simp only [hnone, installs, Pc.won] at inv
      simp only [hinstalls, Pc.won, Pool.tally_nil, Bool.toNat_true]
      omega
  | lost hw hgone =>
      simp only [Pc.won, Pool.tally_nil, Bool.toNat_true, Bool.toNat_false] at inv ⊢
      omega
  | @clean dir outcome => cases outcome <;> simpa [Pc.won] using inv
  | @litter dir outcome => cases outcome <;> simpa [Pc.won] using inv
  | @release outcome => cases outcome <;> simpa [Pc.won] using inv
  | @unlock outcome => cases outcome <;> simpa [Pc.won] using inv
  | _ => simpa [Pc.won] using inv

/-! ### The process -/

/-- What holds between the steps. -/
structure Consistent (s : System) : Prop where
  lock : Pool.tally (fun t : Pc => t.locks.toNat) s.threads = s.memory.installLock.toNat
  leases : Pool.tally (fun t : Pc => t.leases.toNat) s.threads = s.memory.leases
  dirs : s.memory.dirs = Pool.tally Pc.dirs s.threads + s.memory.refused
  wins : Pool.tally (fun t : Pc => t.won.toNat) s.threads ≤ installs s.memory.broker
  known : ∀ t ∈ s.threads, t.Known s.memory
  appointed : Appointed s.memory
  guarded : ∀ (n : Nat) (w : Worker), s.memory.workers[n]? = some w → w.Idle →
    ∃ t ∈ s.threads, t.guard? = some n

theorem Consistent.initial : Consistent ⟨.initial, []⟩ where
  lock := rfl
  leases := rfl
  dirs := rfl
  wins := Nat.le_refl _
  known := nofun
  appointed := nofun
  guarded := nofun

variable {s s' : System}

/-- The one that has the lock is alone with it. -/
theorem locks_alone {before after : List Pc} {u : Pc}
    (lock : Pool.tally (fun t : Pc => t.locks.toNat) (before ++ t :: after) =
      m.installLock.toNat)
    (hu : u ∈ before ++ after) (ht : t.locks = true) : u.locks = false := by
  have hone := Bool.toNat_le m.installLock
  have hle := Pool.le_tally (f := fun t : Pc => t.locks.toNat) hu
  rw [Pool.tally_split, ht] at lock
  cases hlocks : u.locks with
  | false => rfl
  | true =>
      rw [hlocks] at hle
      simp only [Bool.toNat_true] at lock hle
      omega

/-- Some installer has each idle thread. -/
theorem Consistent.guarded_step (inv : Consistent s)
    (step : Pool.Step InstallStep OtherStep s s') (n : Nat) (w : Worker)
    (hget : s'.memory.workers[n]? = some w) (hidle : w.Idle) :
    ∃ t ∈ s'.threads, t.guard? = some n := by
  refine Pool.Step.answered (K := fun _ => True)
    (A := fun (m : Memory) n => ∃ w, m.workers[n]? = some w ∧ w.Idle)
    (Q := fun n t => t.guard? = some n) (fun _ h hasks => ?_) (fun h hasks => ?_) step trivial
    (fun n ⟨w, hget, hidle⟩ => inv.guarded n w hget hidle) n ⟨w, hget, hidle⟩
  · obtain ⟨w, hget, hidle⟩ := hasks
    exact (h.idle hget hidle).imp_right And.symm
  · obtain ⟨w, hget, hidle⟩ := hasks
    exact h.idle hget hidle

theorem Consistent.appointed_step (inv : Consistent s)
    (step : Pool.Step InstallStep OtherStep s s') : Appointed s'.memory := by
  cases step with
  | thread before after h => exact h.appointed (inv.known _ (by simp)) inv.appointed
  | environment threads h => exact h.appointed inv.appointed

theorem Consistent.known_step (inv : Consistent s)
    (step : Pool.Step InstallStep OtherStep s s') : ∀ t ∈ s'.threads, t.Known s'.memory := by
  refine Pool.Step.threads
    (K := fun s : System => Pool.tally (fun t : Pc => t.locks.toNat) s.threads =
      s.memory.installLock.toNat)
    (fun _ h ht => ⟨h.known ht, ?_⟩)
    (fun lock hu h _ inv => h.known_stable (locks_alone lock hu) inv)
    (fun _ h => ⟨fun _ _ inv => h.known_stable inv, ?_⟩) step inv.lock inv.known
  · cases h <;> exact List.forall_mem_nil _
  · cases h with
    | call kind => exact List.forall_mem_singleton.mpr trivial
    | _ => exact List.forall_mem_nil _

theorem Consistent.step (inv : Consistent s) (step : SystemStep s s') : Consistent s' where
  lock := by
    refine Pool.Step.tally (I := fun m held => held = m.installLock.toNat)
      (fun rest h inv => h.lock_count inv) (fun rest h inv => ?_) step.2 inv.lock
    cases h <;> exact inv
  leases := by
    refine Pool.Step.tally (I := fun m held => held = m.leases)
      (fun rest h inv => h.lease_count inv) (fun rest h inv => ?_) step.2 inv.leases
    cases h <;> exact inv
  dirs := by
    refine Pool.Step.tally (I := fun m held => m.dirs = held + m.refused)
      (fun rest h inv => h.dir_count inv) (fun rest h inv => ?_) step.2 inv.dirs
    cases h <;> simpa [Pc.dirs] using inv
  wins := by
    refine Pool.Step.tally (I := fun m wins => wins ≤ installs m.broker)
      (fun rest h inv => h.win_count inv) (fun rest h inv => ?_) step.2 inv.wins
    cases h with
    | upstream hnone => simpa [hnone, installs] using inv
    | _ => simpa [Pc.won] using inv
  known := inv.known_step step.2
  appointed := inv.appointed_step step.2
  guarded := inv.guarded_step step.2

theorem reachable_consistent (h : Transition.Reachable System.Initial SystemStep s) :
    Consistent s :=
  h.invariant (fun _ hs => hs ▸ Consistent.initial) fun _ _ inv step => inv.step step

/-! ### What stays -/

theorem SystemStep.broker (step : SystemStep s s') {b : Authority}
    (h : s.memory.broker = some b) : s'.memory.broker = some b := by
  cases step.2 with
  | thread before after move => exact move.broker h
  | environment threads move => exact move.broker h

theorem broker_stays (run : Transition.Run SystemStep s s') {b : Authority}
    (h : s.memory.broker = some b) : s'.memory.broker = some b :=
  run.invariant (P := fun s : System => s.memory.broker = some b)
    (fun _ _ h step => step.broker h) h

/-- It is on its way to the error of a second install. -/
def Pc.Told (kind : Kind) : Pc → Prop
  | .call k | .locked k => k = kind
  | .unlocking outcome | .returned outcome => outcome = .error (alreadyInstalled kind)
  | _ => False

theorem InstallStep.told {kind : Kind} (step : InstallStep m t m' t' spawned)
    (hsome : m.broker ≠ none) (h : t.Told kind) : t'.Told kind := by
  cases step with
  | lock hfree => exact h
  | installed hsome =>
      obtain rfl := h
      rfl
  | absent hnone => exact absurd hnone hsome
  | unlock => exact h
  | _ => exact h.elim

theorem told_stays (run : Transition.Run SystemStep s s') {b : Authority}
    (hbroker : s.memory.broker = some b) {kind : Kind} {i : Nat} {t : Pc}
    (hget : s.threads[i]? = some t) (h : t.Told kind) :
    ∃ t', s'.threads[i]? = some t' ∧ t'.Told kind := by
  refine (run.invariant
    (P := fun s : System => s.memory.broker = some b ∧
      ∃ t', s.threads[i]? = some t' ∧ t'.Told kind)
    (fun s s' inv step => ⟨step.broker inv.1, ?_⟩) ⟨hbroker, t, hget, h⟩).2
  obtain ⟨hbroker, t, hget, h⟩ := inv
  obtain ⟨t', hget', rfl | ⟨spawned, move⟩⟩ := step.2.getElem? hget
  · exact ⟨t', hget', h⟩
  · exact ⟨t', hget', move.told (by simp [hbroker]) h⟩

/-! ### Installing -/

theorem Pc.outside {t : Pc} (h : t.locks = false) : t.leases = false ∧ t.dirs = 0 := by
  cases t with
  | call kind => exact ⟨rfl, rfl⟩
  | returned outcome => exact ⟨rfl, rfl⟩
  | _ => cases h

/-- With nobody inside, everything is given back. -/
theorem Consistent.outside (inv : Consistent s) (h : ∀ t ∈ s.threads, t.locks = false) :
    s.memory.installLock = false ∧ s.memory.leases = 0 ∧
      s.memory.dirs = s.memory.refused := by
  have none {f : Pc → Nat} (hf : ∀ t ∈ s.threads, f t = 0) : Pool.tally f s.threads = 0 :=
    List.sum_eq_zero (by simpa using hf)
  have hdirs : Pool.tally Pc.dirs s.threads = 0 :=
    List.sum_eq_zero (by simpa using fun t ht => (Pc.outside (h t ht)).2)
  refine ⟨?_, ?_, ?_⟩
  · have hlock := inv.lock
    rw [none fun t ht => by rw [h t ht]; rfl] at hlock
    simpa using hlock.symm
  · rw [← inv.leases]
    exact none fun t ht => by rw [(Pc.outside (h t ht)).1]; rfl
  · rw [inv.dirs, hdirs, zero_add]

/-- Other code set a broker behind the check of an install. -/
def overtaken : System :=
  ⟨{ Memory.initial with broker := some .upstream }, [.returned .panicked]⟩

theorem moves_alone (step : InstallStep m t m' t' []) (h : m.exited = false) :
    SystemStep ⟨m, [t]⟩ ⟨m', [t']⟩ :=
  ⟨h, Pool.Step.thread [] [] step⟩

theorem overtaken_reachable : Transition.Reachable System.Initial SystemStep overtaken := by
  have start : Transition.Reachable System.Initial SystemStep ⟨.initial, []⟩ := .start rfl
  have called := start.snoc ⟨rfl, Pool.Step.environment [] (.call .external)⟩
  have ready := (((called.snoc (moves_alone (.lock rfl) rfl)).snoc
    (moves_alone (.absent rfl) rfl)).snoc (moves_alone .lease rfl)).snoc
      (moves_alone .connect rfl)
  have beaten := ready.snoc ⟨rfl, Pool.Step.environment _ (.upstream rfl)⟩
  exact (((beaten.snoc (moves_alone (.panics nofun) rfl)).snoc (moves_alone .unwind rfl)).snoc
    (moves_alone .release rfl)).snoc (moves_alone .unlock rfl)

end Libdeno.Broker.Install
