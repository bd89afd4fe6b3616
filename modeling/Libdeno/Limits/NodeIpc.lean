import Libdeno.Library.Descriptors
import Libdeno.Library.Transition
import Libdeno.Supervisor.TerminalMapping

/-!
# Libdeno.Limits.NodeIpc

The Node IPC channel a trusted launcher passes in `NODE_CHANNEL_FD` (limits.rs): one call of
`initialize_node_ipc_from_env` claims the descriptor, and one run takes it. Both hold the lock of
`NODE_IPC` throughout, so that a history of a process is a sequence of them, with whatever the
rest of the process does to the descriptors nobody here owns.

A process attempts the initialization once, whatever comes of it. A descriptor it claims is
closed, held, or handed to one run, and to no second one; as long as it is held it is a connected
local stream socket that no child process inherits; and no other descriptor is touched
(`node_ipc_handed_off_once`).
-/

namespace Libdeno.Limits.NodeIpc

open Descriptors Supervisor Transition

/-! ### The descriptor -/

/-- What `getsockopt(SO_TYPE)` tells. -/
inductive SocketType
  | stream
  | other
  deriving Repr, DecidableEq

/-- The family of an address. -/
inductive Family
  | unix
  | other
  deriving Repr, DecidableEq

/-- Why `getpeername` fails. -/
inductive PeerError
  | notConnected
  | other (error : IoError)
  deriving Repr, DecidableEq

/-- An open file, as far as the calls on sockets tell it. -/
structure Socket where
  type : Except IoError SocketType
  name : Except IoError Family
  peer : Except PeerError Family
  deriving Repr, DecidableEq

/-- The digits of a number, with their sign. -/
def signedDigits (negative : Bool) (digits : List Char) : Option Int :=
  if digits.all Char.isDigit then
    let n : Nat := digits.foldl (fun n digit => 10 * n + (digit.toNat - '0'.toNat)) 0
    let value : Int := if negative then -n else n
    if -9223372036854775808 ≤ value ∧ value ≤ 9223372036854775807 then some value else none
  else none

/-- `str::parse::<i64>`. -/
def parseI64 (value : String) : Option Int :=
  match value.toList with
  | [] | ['+'] | ['-'] => none
  | '+' :: digits => signedDigits false digits
  | '-' :: digits => signedDigits true digits
  | digits => signedDigits false digits

/-- `parse_node_channel_fd`. -/
def parseNodeChannelFd (value : String) : Option Nat := do
  let fd ← parseI64 value
  if 0 ≤ fd ∧ fd ≤ 2147483647 then some fd.toNat else none

/-- The checks of `claim_node_ipc` on the claimed socket. -/
def checkSocket (socket : Socket) : Except LibdenoError Unit := do
  let type ← socket.type.mapError .io
  if type ≠ .stream then
    .error (.configuration "NODE_CHANNEL_FD must be a stream socket")
  let name ← socket.name.mapError .io
  if name ≠ .unix then
    .error (.configuration "NODE_CHANNEL_FD must be a local Unix socket")
  match socket.peer with
  | .error .notConnected =>
      .error (.configuration "NODE_CHANNEL_FD must be a connected local Unix socket")
  | .error (.other error) => .error (.io error)
  | .ok .other => .error (.configuration "NODE_CHANNEL_FD peer must be a local Unix socket")
  | .ok .unix => .ok ()

/-- What a call on a descriptor that is not open fails with. -/
def badDescriptor : IoError := { kind := .other, message := "Bad file descriptor (os error 9)" }

/-- `claim_node_ipc`: once the text is a descriptor it is owned, and closed where a check fails. -/
def claimNodeIpc (raw : String) (table : Table Socket) :
    Except LibdenoError Nat × Table Socket :=
  match parseNodeChannelFd raw with
  | none => (.error (.configuration "invalid NODE_CHANNEL_FD"), table)
  | some fd =>
      match table.entry fd with
      | none => (.error (.io badDescriptor), table.close fd)
      | some descriptor =>
          match checkSocket descriptor.file with
          | .error error => (.error error, table.close fd)
          | .ok () =>
              match table.setfd fd true with
              | none => (.error (.io badDescriptor), table.close fd)
              | some table => (.ok fd, table)

/-! ### The process -/

/-- `ChildIpcSerialization`. -/
inductive ChildIpcSerialization
  | json
  | advanced
  deriving Repr, DecidableEq

/-- `std::env::var`; `notUnicode` has the text of the error. -/
inductive EnvVar
  | value (text : String)
  | notPresent
  | notUnicode (error : String)
  deriving Repr, DecidableEq

/-- `NODE_CHANNEL_FD` and `NODE_CHANNEL_SERIALIZATION_MODE` at the time of a call. -/
structure Env where
  channelFd : EnvVar
  serializationMode : EnvVar
  deriving Repr, DecidableEq

abbrev Channel := Nat × ChildIpcSerialization

structure Process where
  /-- `NODE_IPC`: `none` before the attempt. -/
  ipc : Option (Option Channel)
  table : Table Socket
  /-- What runs took; no part of the program. -/
  handed : List Channel
  deriving Repr, DecidableEq

/-- The serialization the environment asks for. -/
def serialization : EnvVar → Except LibdenoError ChildIpcSerialization
  | .notPresent | .value "json" => .ok .json
  | .value "advanced" => .ok .advanced
  | .notUnicode text =>
      .error (.configuration s!"invalid NODE_CHANNEL_SERIALIZATION_MODE: {text}")
  | .value other =>
      .error (.configuration s!"invalid NODE_CHANNEL_SERIALIZATION_MODE: {other}")

/-- The error of a second attempt. -/
def attempted : LibdenoError :=
  .configuration "Node IPC initialization may only be performed once"

/-- `initialize_node_ipc_from_env`. -/
def initializeNodeIpc (env : Env) (p : Process) : Except LibdenoError Unit × Process :=
  match p.ipc with
  | some _ => (.error attempted, p)
  | none =>
      -- `begin_node_ipc_attempt`: a failed attempt is terminal, too
      let p := { p with ipc := some none }
      match env.channelFd with
      | .notPresent => (.ok (), p)
      | .notUnicode text => (.error (.configuration s!"invalid NODE_CHANNEL_FD: {text}"), p)
      | .value raw =>
          match claimNodeIpc raw p.table with
          | (.error error, table) => (.error error, { p with table })
          | (.ok fd, table) =>
              match serialization env.serializationMode with
              | .error error => (.error error, { p with table := table.close fd })
              | .ok mode => (.ok (), { p with table, ipc := some (some (fd, mode)) })

/-- `node_ipc_init`: a run takes the channel. -/
def nodeIpcInit (p : Process) : Option Channel × Process :=
  match p.ipc with
  | some (some channel) =>
      (some channel, { p with ipc := some none, handed := p.handed ++ [channel] })
  | _ => (none, p)

/-- What may happen next; nobody else touches a descriptor that is held. -/
inductive Step : Process → Process → Prop
  | attempt (env : Env) (p : Process) : Step p (initializeNodeIpc env p).2
  | take (p : Process) : Step p (nodeIpcInit p).2
  | other {p : Process} {table : Table Socket} :
      (∀ fd mode, p.ipc = some (some (fd, mode)) → table.entry fd = p.table.entry fd) →
      Step p { p with table }

/-- Nothing was attempted. -/
def init (p : Process) : Prop := p.ipc = none ∧ p.handed = []

/-! ### What an attempt comes to -/

/-- A connected local stream socket. -/
def Local (socket : Socket) : Prop :=
  socket.type = .ok .stream ∧ socket.name = .ok .unix ∧ socket.peer = .ok .unix

theorem checkSocket_ok {socket : Socket} : checkSocket socket = .ok () ↔ Local socket := by
  rcases socket with ⟨type, name, peer⟩
  rcases type with e | (- | -) <;> rcases name with e' | (- | -) <;>
    rcases peer with (- | e'') | (- | -) <;>
    simp [checkSocket, Local, Except.mapError, bind, Except.bind]

/-- A claimed descriptor is closed, or it is a local socket that no child inherits. -/
theorem claimNodeIpc_inv (raw : String) (table : Table Socket) :
    (parseNodeChannelFd raw = none ∧ (claimNodeIpc raw table).2 = table ∧
      ∃ error, (claimNodeIpc raw table).1 = .error error) ∨
    ∃ fd, parseNodeChannelFd raw = some fd ∧
      (((claimNodeIpc raw table).2 = table.close fd ∧
          ∃ error, (claimNodeIpc raw table).1 = .error error) ∨
        ∃ descriptor, table.entry fd = some descriptor ∧ Local descriptor.file ∧
          claimNodeIpc raw table =
            (.ok fd, table.put fd (some { descriptor with cloexec := true }))) := by
  unfold claimNodeIpc
  cases hfd : parseNodeChannelFd raw with
  | none => exact .inl ⟨rfl, rfl, _, rfl⟩
  | some fd =>
      refine .inr ⟨fd, rfl, ?_⟩
      dsimp only
      cases hentry : table.entry fd with
      | none => exact .inl ⟨rfl, _, rfl⟩
      | some descriptor =>
          dsimp only
          cases hcheck : checkSocket descriptor.file with
          | error error => exact .inl ⟨rfl, _, rfl⟩
          | ok _ =>
              refine .inr ⟨descriptor, rfl, checkSocket_ok.mp hcheck, ?_⟩
              simp [Table.setfd, hentry]

/-- A call after the first changes nothing, and fails. -/
theorem initializeNodeIpc_again (env : Env) {p : Process} (h : p.ipc ≠ none) :
    initializeNodeIpc env p = (.error attempted, p) := by
  cases hipc : p.ipc with
  | none => exact absurd hipc h
  | some held => simp [initializeNodeIpc, hipc]

/-- What the first call comes to. -/
structure Attempt (env : Env) (p : Process) (result : Except LibdenoError Unit × Process) :
    Prop where
  /-- There is no second attempt, even where this one fails. -/
  terminal : result.2.ipc ≠ none
  handed : result.2.handed = p.handed
  /-- No descriptor is touched but the one the environment names. -/
  frame : ∀ fd, (∀ raw, env.channelFd = .value raw → parseNodeChannelFd raw ≠ some fd) →
    result.2.table.entry fd = p.table.entry fd
  /-- A named descriptor is closed with an error, or held as the environment says. -/
  claimed : ∀ raw fd, env.channelFd = .value raw → parseNodeChannelFd raw = some fd →
    ((∃ error, result.1 = .error error) ∧ result.2.ipc = some none ∧
        result.2.table.entry fd = none) ∨
      ∃ mode descriptor, serialization env.serializationMode = .ok mode ∧ result.1 = .ok () ∧
        result.2.ipc = some (some (fd, mode)) ∧ p.table.entry fd = some descriptor ∧
        Local descriptor.file ∧
        result.2.table.entry fd = some { descriptor with cloexec := true }
  /-- A text that names no descriptor owns nothing. -/
  unparsed : ∀ raw, env.channelFd = .value raw → parseNodeChannelFd raw = none →
    (∃ error, result.1 = .error error) ∧ result.2.ipc = some none
  /-- No variable is no channel, and no error. -/
  absent : env.channelFd = .notPresent → result.1 = .ok () ∧ result.2.ipc = some none

/-- The first call, by what the environment has. -/
theorem initializeNodeIpc_attempt (env : Env) {p : Process} (h : p.ipc = none) :
    Attempt env p (initializeNodeIpc env p) := by
  unfold initializeNodeIpc
  rw [h]
  dsimp only
  cases hchannel : env.channelFd with
  | notPresent => constructor <;> simp [hchannel]
  | notUnicode text => constructor <;> simp [hchannel]
  | value raw =>
      dsimp only
      rcases claimNodeIpc_inv raw p.table with
        ⟨hnone, htable, error, herror⟩ | ⟨fd, hfd, ⟨htable, error, herror⟩ | hclaimed⟩
      · have heq : claimNodeIpc raw p.table = (.error error, p.table) := Prod.ext herror htable
        rw [heq]
        constructor <;> simp [hchannel, hnone]
        rintro _ fd rfl hfd
        simp [hnone] at hfd
      · have heq : claimNodeIpc raw p.table = (.error error, p.table.close fd) :=
          Prod.ext herror htable
        rw [heq]
        constructor <;> simp only [hchannel, EnvVar.value.injEq] <;> grind [Table.close]
      · obtain ⟨descriptor, hentry, hlocal, heq⟩ := hclaimed
        rw [heq]
        dsimp only
        cases hmode : serialization env.serializationMode with
        | error error =>
            -- the claimed descriptor goes with its guard
            constructor <;> simp only [hchannel, EnvVar.value.injEq] <;> grind [Table.close]
        | ok mode =>
            constructor <;> simp only [hchannel, EnvVar.value.injEq] <;> grind

/-! ### Histories -/

/-- What is true at any time: the held channel is a local socket for this process alone, and
nothing was handed out before it. -/
structure Held (p : Process) : Prop where
  owned : ∀ fd mode, p.ipc = some (some (fd, mode)) →
    ∃ descriptor, p.table.entry fd = some descriptor ∧ Local descriptor.file ∧
      descriptor.cloexec = true
  unique : p.handed.length ≤ 1
  fresh : ∀ channel, p.ipc = some (some channel) → p.handed = []
  before : p.ipc = none → p.handed = []

theorem Held.start {p : Process} (h : init p) : Held p where
  owned _ _ hipc := by simp [h.1] at hipc
  unique := by simp [h.2]
  fresh _ hipc := by simp [h.1] at hipc
  before _ := h.2

theorem Held.attempt (env : Env) {p : Process} (h : Held p) :
    Held (initializeNodeIpc env p).2 := by
  by_cases hipc : p.ipc = none
  · have hattempt := initializeNodeIpc_attempt env hipc
    have hhanded : (initializeNodeIpc env p).2.handed = [] := hattempt.handed.trans (h.before hipc)
    refine ⟨fun fd mode held => ?_, by simp [hhanded], fun _ _ => hhanded, fun _ => hhanded⟩
    -- only a claimed descriptor is held
    cases hchannel : env.channelFd with
    | notPresent => simp [(hattempt.absent hchannel).2] at held
    | notUnicode text => simp [initializeNodeIpc, hipc, hchannel] at held
    | value raw =>
        cases hfd : parseNodeChannelFd raw with
        | none => simp [(hattempt.unparsed raw hchannel hfd).2] at held
        | some claimed =>
            rcases hattempt.claimed raw claimed hchannel hfd with
              ⟨-, hnone, -⟩ | ⟨mode', descriptor, -, -, hheld, -, hlocal, hentry⟩
            · simp [hnone] at held
            · obtain ⟨rfl, rfl⟩ : claimed = fd ∧ mode' = mode := by simpa [hheld] using held
              exact ⟨_, hentry, hlocal, rfl⟩
  · rw [initializeNodeIpc_again env hipc]
    exact h

/-- A take finds no channel and does nothing, or takes the one that is held. -/
theorem nodeIpcInit_inv (p : Process) :
    (nodeIpcInit p = (none, p) ∧ ∀ channel, p.ipc ≠ some (some channel)) ∨
    ∃ channel, p.ipc = some (some channel) ∧
      nodeIpcInit p =
        (some channel, { p with ipc := some none, handed := p.handed ++ [channel] }) := by
  unfold nodeIpcInit
  split
  · next channel hipc => exact .inr ⟨channel, hipc, rfl⟩
  · next hipc => exact .inl ⟨rfl, fun channel h => hipc channel h⟩

theorem Held.take {p : Process} (h : Held p) : Held (nodeIpcInit p).2 := by
  rcases nodeIpcInit_inv p with ⟨heq, -⟩ | ⟨channel, hipc, heq⟩
  · rw [heq]
    exact h
  · rw [heq]
    constructor <;> simp [h.fresh channel hipc]

theorem Held.step {p q : Process} (h : Held p) (step : Step p q) : Held q := by
  cases step with
  | attempt env => exact h.attempt env
  | take => exact h.take
  | other hframe =>
      refine ⟨fun fd mode hipc => ?_, h.unique, h.fresh, h.before⟩
      rw [hframe fd mode hipc]
      exact h.owned fd mode hipc

/-- What a later state may be: an attempt is never undone, and the held channel is still held or
was handed to one run. -/
def Later (p q : Process) : Prop :=
  match p.ipc with
  | none => p.handed <+: q.handed
  | some none => q.ipc = some none ∧ q.handed = p.handed
  | some (some channel) =>
      q.ipc = some (some channel) ∧ q.handed = p.handed ∨
        q.ipc = some none ∧ q.handed = p.handed ++ [channel]

theorem Later.refl (p : Process) : Later p p := by
  unfold Later
  split <;> simp_all

theorem Later.handed {p q : Process} (h : Later p q) : p.handed <+: q.handed := by
  unfold Later at h
  split at h
  · exact h
  · exact h.2 ▸ List.prefix_rfl
  · rcases h with ⟨-, h⟩ | ⟨-, h⟩
    · exact h ▸ List.prefix_rfl
    · exact h ▸ List.prefix_append _ _

theorem Later.trans {p q r : Process} (h : Later p q) (h' : Later q r) : Later p r := by
  cases hipc : p.ipc with
  | none =>
      simp only [Later, hipc]
      exact h.handed.trans h'.handed
  | some held =>
      cases held with
      | none =>
          simp only [Later, hipc] at h ⊢
          simpa [Later, h.1, h.2] using h'
      | some channel =>
          simp only [Later, hipc] at h ⊢
          rcases h with ⟨hq, hhanded⟩ | ⟨hq, hhanded⟩
          · simpa [Later, hq, hhanded] using h'
          · exact .inr (by simpa [Later, hq, hhanded] using h')

theorem Later.step {p q : Process} (step : Step p q) : Later p q := by
  cases step with
  | attempt env =>
      by_cases hipc : p.ipc = none
      · simp only [Later, hipc]
        exact (initializeNodeIpc_attempt env hipc).handed ▸ List.prefix_rfl
      · rw [initializeNodeIpc_again env hipc]
        exact Later.refl p
  | take =>
      rcases nodeIpcInit_inv p with ⟨heq, -⟩ | ⟨channel, hipc, heq⟩
      · rw [heq]
        exact Later.refl p
      · rw [heq]
        simp [Later, hipc]
  | other _ =>
      unfold Later
      split <;> simp_all

/-- Whatever calls, runs and other work a process sees: a held channel is a connected local
stream socket no child inherits, at most one run ever takes a channel, the first attempt claims
or closes the descriptor it is given and touches no other, and no later one changes anything. -/
theorem node_ipc_handed_off_once {p : Process} (h : Reachable init Step p) :
    Held p ∧
      (∀ env, p.ipc = none → Attempt env p (initializeNodeIpc env p)) ∧
      (∀ env, p.ipc ≠ none → initializeNodeIpc env p = (.error attempted, p)) ∧
      ∀ q, Run Step p q → Later p q ∧ q.handed.length ≤ 1 := by
  have held : ∀ {q}, Reachable init Step q → Held q :=
    Reachable.invariant (P := Held) (fun _ => Held.start) (fun _ _ => Held.step)
  refine ⟨held h, fun env => initializeNodeIpc_attempt env,
    fun env => initializeNodeIpc_again env, fun q run => ⟨?_, (held (h.run run)).unique⟩⟩
  exact Run.monotone (P := fun _ => True) Later.refl Later.trans (fun _ _ _ _ => trivial)
    (fun _ _ _ => Later.step) run trivial

/-- One channel passed in descriptor 3. -/
def samplePassed : Process where
  ipc := none
  table := [none, none, none, some
    { file := { type := .ok .stream, name := .ok .unix, peer := .ok .unix }, cloexec := false }]
  handed := []

/-- Its environment. -/
def sampleEnv : Env where
  channelFd := .value "3"
  serializationMode := .value "advanced"

/-- The process claims the channel and a run takes it; a second run gets none. -/
theorem node_ipc_handed_off_once_sample :
    Held (nodeIpcInit (initializeNodeIpc sampleEnv samplePassed).2).2 ∧
      (nodeIpcInit (initializeNodeIpc sampleEnv samplePassed).2).1 = some (3, .advanced) ∧
      (nodeIpcInit (nodeIpcInit (initializeNodeIpc sampleEnv samplePassed).2).2).1 = none :=
  ⟨(node_ipc_handed_off_once
      (((Reachable.start ⟨rfl, rfl⟩).snoc (.attempt sampleEnv samplePassed)).snoc
        (.take _))).1,
    by decide +kernel, by decide +kernel⟩

end Libdeno.Limits.NodeIpc
