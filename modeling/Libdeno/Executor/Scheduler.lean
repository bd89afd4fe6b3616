import Libdeno.Executor.TaskControl

/-!
# Libdeno.Executor.Scheduler

`SchedulerState`: the data that `AdmissionScheduler` keeps under its lock, with the
critical sections that work on it. `SchedulerChange` lists everything a section can
do; the facts about limits, identifiers and order are read off that list.

An execution is identified by its *key*, the number of identifiers allocated before
its own. Keys stand for the `Arc`s that owners and the active map share: unlike
identifiers, which are 64 bits wide and wrap around, they are never reused.
-/

namespace Libdeno.Executor

/-- `AdmissionConfig`; the active limit is a `NonZeroUsize`. -/
structure AdmissionConfig where
  activeLimit : Nat
  activeLimit_pos : 0 < activeLimit
  queueLimit : Nat

/-- `TaskPermit`. -/
inductive TaskPermit
  | active
  | queued
  deriving Repr, DecidableEq

/-- `TaskOwner`: `key` stands for its `control` and its `result`, `runner` for the
backend of its `ExecutorDispatch`. -/
structure TaskOwner where
  id : UInt64
  key : Nat
  runner : ExecutionBackend
  deadline : Option Nat
  permit : Option TaskPermit
  deriving Repr, DecidableEq

namespace TaskOwner

/-- `TaskOwner::promote`. -/
def promote (self : TaskOwner) : TaskOwner := { self with permit := some .active }

/-- The owner's deadline has passed. -/
def expired (self : TaskOwner) (now : Nat) : Bool := self.deadline.any (· ≤ now)

end TaskOwner

/-- `HashMap<u64, Arc<TaskControl>>`. -/
abbrev ActiveMap := List (UInt64 × Nat)

namespace ActiveMap

def remove (self : ActiveMap) (id : UInt64) : ActiveMap := self.filter (·.1 ≠ id)

/-- An entry of the same identifier is replaced. -/
def insert (self : ActiveMap) (id : UInt64) (key : Nat) : ActiveMap := (id, key) :: self.remove id

/-- The controls in the map. -/
def keys (self : ActiveMap) : List Nat := self.map Prod.snd

end ActiveMap

/-- `SchedulerState`. The last two fields are history: how many identifiers were
allocated, and the owners taken from `ready` so far. -/
structure SchedulerState where
  accepting : Bool
  queue : List TaskOwner
  ready : List TaskOwner
  active : ActiveMap
  nextId : UInt64
  submissions : Nat
  dispatched : List TaskOwner

/-- `SubmitError`, as far as the admission section answers it. -/
inductive SubmitError
  | shutdown
  | queueFull
  deriving Repr, DecidableEq

/-- `next_id.wrapping_add(1).max(1)`. -/
def followingId (id : UInt64) : UInt64 := max (id + 1) 1

namespace SchedulerState

/-- The state in `AdmissionScheduler::new`. -/
def new : SchedulerState where
  accepting := true
  queue := []
  ready := []
  active := []
  nextId := 1
  submissions := 0
  dispatched := []

/-- The state after an identifier was allocated. -/
def allocate (self : SchedulerState) : SchedulerState :=
  { self with nextId := followingId self.nextId, submissions := self.submissions + 1 }

/-- The owner of a new submission. -/
def newOwner (self : SchedulerState) (runner : ExecutionBackend) (deadline : Option Nat)
    (permit : TaskPermit) : TaskOwner :=
  { id := self.nextId, key := self.submissions, runner, deadline, permit := some permit }

/-- The admission section of `submit`. -/
def submit (config : AdmissionConfig) (self : SchedulerState) (runner : ExecutionBackend)
    (deadline : Option Nat) : Except SubmitError TaskPermit × SchedulerState :=
  if !self.accepting then
    (.error .shutdown, self)
  -- A released slot and an older queued task can coexist briefly: the new task
  -- stays behind that queue.
  else if self.active.length < config.activeLimit ∧ self.queue = [] then
    (.ok .active,
      { self.allocate with
        active := self.active.insert self.nextId self.submissions
        ready := self.ready ++ [self.newOwner runner deadline .active] })
  else if self.queue.length ≥ config.queueLimit then
    (.error .queueFull, self.allocate)
  else
    (.ok .queued,
      { self.allocate with queue := self.queue ++ [self.newOwner runner deadline .queued] })

/-- The first loops of the manager's section: expired owners leave both lists. -/
def sweep (self : SchedulerState) (now : Nat) : List TaskOwner × SchedulerState :=
  (self.queue.filter (·.expired now) ++ self.ready.filter (·.expired now),
    { self with
      queue := self.queue.filter fun owner => !owner.expired now
      ready := self.ready.filter fun owner => !owner.expired now })

/-- One turn of the manager's promotion loop. -/
def promoteNext (config : AdmissionConfig) (self : SchedulerState) :
    Option (TaskOwner × SchedulerState) :=
  if self.active.length < config.activeLimit then
    match self.queue with
    | [] => none
    | owner :: queue =>
        some (owner,
          { self with
            queue
            active := self.active.insert owner.id owner.key
            ready := self.ready ++ [owner.promote] })
  else
    none

/-- The owner the manager dispatches next. -/
def dispatchNext (self : SchedulerState) : Option TaskOwner × SchedulerState :=
  match self.ready with
  | [] => (none, self)
  | owner :: ready => (some owner, { self with ready, dispatched := self.dispatched ++ [owner] })

/-- Nothing is active, queued or ready. -/
def isIdle (self : SchedulerState) : Bool :=
  self.active.isEmpty && self.queue.isEmpty && self.ready.isEmpty

/-- `should_exit`. -/
def shouldExit (self : SchedulerState) : Bool := !self.accepting && self.isIdle

/-- The part of `request_cancel` that takes the owner out of the queue or of `ready`. -/
def takeOwner (self : SchedulerState) (id : UInt64) : Option TaskOwner × SchedulerState :=
  match self.queue.find? (·.id = id) with
  | some owner => (some owner, { self with queue := self.queue.eraseP (·.id = id) })
  | none =>
      match self.ready.find? (·.id = id) with
      | some owner => (some owner, { self with ready := self.ready.eraseP (·.id = id) })
      | none => (none, self)

/-- `release_active`. -/
def releaseActive (self : SchedulerState) (id : UInt64) : SchedulerState :=
  { self with active := self.active.remove id }

/-- The section of `fail_pending`: both lists are drained. -/
def drain (self : SchedulerState) : SchedulerState := { self with queue := [], ready := [] }

/-- The start of `shutdown`'s section. -/
def close (self : SchedulerState) : SchedulerState := { self.drain with accepting := false }

end SchedulerState

/-! ### Everything a section can do -/

/-- The changes a section can make to the scheduler's state, each with its guard. -/
inductive SchedulerChange (config : AdmissionConfig) (s : SchedulerState) :
    SchedulerState → Prop
  | unchanged : SchedulerChange config s s
  | rejected : SchedulerChange config s s.allocate
  | admitted (runner : ExecutionBackend) (deadline : Option Nat) : s.accepting = true →
      s.active.length < config.activeLimit → s.queue = [] →
      SchedulerChange config s { s.allocate with
        active := s.active.insert s.nextId s.submissions
        ready := s.ready ++ [s.newOwner runner deadline .active] }
  | enqueued (runner : ExecutionBackend) (deadline : Option Nat) : s.accepting = true →
      s.queue.length < config.queueLimit →
      SchedulerChange config s { s.allocate with
        queue := s.queue ++ [s.newOwner runner deadline .queued] }
  | removed {queue ready : List TaskOwner} : queue.Sublist s.queue → ready.Sublist s.ready →
      SchedulerChange config s { s with queue, ready }
  | closed : SchedulerChange config s s.close
  | released (id : UInt64) : SchedulerChange config s (s.releaseActive id)
  | promoted {owner : TaskOwner} {queue : List TaskOwner} : s.queue = owner :: queue →
      s.active.length < config.activeLimit →
      SchedulerChange config s { s with
        queue
        active := s.active.insert owner.id owner.key
        ready := s.ready ++ [owner.promote] }
  | dispatched {owner : TaskOwner} {ready : List TaskOwner} : s.ready = owner :: ready →
      SchedulerChange config s { s with ready, dispatched := s.dispatched ++ [owner] }

section Changes

open SchedulerState

variable {config : AdmissionConfig} {s s' : SchedulerState}

theorem submit_change (config : AdmissionConfig) (s : SchedulerState)
    (runner : ExecutionBackend) (deadline : Option Nat) :
    SchedulerChange config s (s.submit config runner deadline).2 := by
  unfold submit
  split
  · exact .unchanged
  · next haccepting =>
    split
    · next h => exact .admitted runner deadline (by simpa using haccepting) h.1 h.2
    · split
      · exact .rejected
      · next hlen => exact .enqueued runner deadline (by simpa using haccepting) (by omega)

theorem sweep_change (config : AdmissionConfig) (s : SchedulerState) (now : Nat) :
    SchedulerChange config s (s.sweep now).2 :=
  .removed List.filter_sublist List.filter_sublist

theorem takeOwner_change (config : AdmissionConfig) (s : SchedulerState) (id : UInt64) :
    SchedulerChange config s (s.takeOwner id).2 := by
  unfold takeOwner
  split
  · exact .removed List.eraseP_sublist (.refl _)
  · split
    · exact .removed (.refl _) List.eraseP_sublist
    · exact .unchanged

theorem drain_change (config : AdmissionConfig) (s : SchedulerState) :
    SchedulerChange config s s.drain :=
  .removed (List.nil_sublist _) (List.nil_sublist _)

theorem promoteNext_eq_some {owner : TaskOwner} (h : s.promoteNext config = some (owner, s')) :
    ∃ queue, s.queue = owner :: queue ∧ s.active.length < config.activeLimit ∧
      s' = { s with
        queue
        active := s.active.insert owner.id owner.key
        ready := s.ready ++ [owner.promote] } := by
  unfold promoteNext at h
  split at h
  · next hlen =>
    split at h
    · cases h
    · next queue hqueue =>
      obtain ⟨rfl, rfl⟩ := by simpa using h
      exact ⟨queue, hqueue, hlen, rfl⟩
  · cases h

theorem promoteNext_change {owner : TaskOwner}
    (h : s.promoteNext config = some (owner, s')) : SchedulerChange config s s' := by
  obtain ⟨queue, hqueue, hlen, rfl⟩ := promoteNext_eq_some h
  exact .promoted hqueue hlen

/-- The promotion loop has ended: no slot is free or nobody waits for one. -/
theorem promoteNext_eq_none (h : s.promoteNext config = none) :
    config.activeLimit ≤ s.active.length ∨ s.queue = [] := by
  unfold promoteNext at h
  split at h
  · split at h
    · next hqueue => exact .inr hqueue
    · cases h
  · next hlen => exact .inl (Nat.le_of_not_lt hlen)

theorem dispatchNext_change (config : AdmissionConfig) (s : SchedulerState) :
    SchedulerChange config s s.dispatchNext.2 := by
  unfold dispatchNext
  split
  · exact .unchanged
  · next h => exact .dispatched h

/-! ### The active map -/

theorem length_remove (active : ActiveMap) (id : UInt64) :
    (active.remove id).length ≤ active.length :=
  List.length_filter_le _ _

theorem length_insert (active : ActiveMap) (id : UInt64) (key : Nat) :
    (active.insert id key).length ≤ active.length + 1 :=
  Nat.succ_le_succ (length_remove active id)

/-! ### Limits -/

/-- The two limits of the configuration are respected. -/
structure Limits (config : AdmissionConfig) (s : SchedulerState) : Prop where
  active : s.active.length ≤ config.activeLimit
  queue : s.queue.length ≤ config.queueLimit

theorem Limits.new (config : AdmissionConfig) : Limits config .new :=
  ⟨Nat.zero_le _, Nat.zero_le _⟩

theorem SchedulerChange.limits (change : SchedulerChange config s s')
    (inv : Limits config s) : Limits config s' := by
  obtain ⟨hactive, hqueue⟩ := inv
  cases change with
  | unchanged => exact ⟨hactive, hqueue⟩
  | rejected => exact ⟨hactive, hqueue⟩
  | admitted runner deadline haccepting hlen hempty =>
      exact ⟨Nat.le_trans (length_insert _ _ _) hlen, hqueue⟩
  | enqueued runner deadline haccepting hlen =>
      refine ⟨hactive, ?_⟩
      rw [List.length_append]
      exact hlen
  | removed hq hr => exact ⟨hactive, Nat.le_trans hq.length_le hqueue⟩
  | closed => exact ⟨hactive, Nat.zero_le _⟩
  | released id => exact ⟨Nat.le_trans (length_remove _ _) hactive, hqueue⟩
  | promoted hq hlen =>
      refine ⟨Nat.le_trans (length_insert _ _ _) hlen, ?_⟩
      rw [hq, List.length_cons] at hqueue
      exact Nat.le_of_succ_le hqueue
  | dispatched hr => exact ⟨hactive, hqueue⟩

/-! ### Closing -/

/-- No task is accepted and none waits. -/
def SchedulerState.Closed (s : SchedulerState) : Prop :=
  s.accepting = false ∧ s.queue = [] ∧ s.ready = []

theorem SchedulerChange.accepting (change : SchedulerChange config s s')
    (h : s.accepting = false) : s'.accepting = false := by
  cases change <;> first | exact h | rfl

/-- A closed scheduler stays closed, and allocates no owner. -/
theorem SchedulerChange.closed_stable (change : SchedulerChange config s s') (h : s.Closed) :
    s'.Closed := by
  obtain ⟨haccepting, hqueue, hready⟩ := h
  refine ⟨change.accepting haccepting, ?_⟩
  cases change with
  | unchanged => exact ⟨hqueue, hready⟩
  | rejected => exact ⟨hqueue, hready⟩
  | admitted runner deadline hopen => simp [haccepting] at hopen
  | enqueued runner deadline hopen => simp [haccepting] at hopen
  | removed hq hr =>
      rw [hqueue] at hq
      rw [hready] at hr
      exact ⟨List.sublist_nil.mp hq, List.sublist_nil.mp hr⟩
  | closed => exact ⟨rfl, rfl⟩
  | released id => exact ⟨hqueue, hready⟩
  | promoted hq => simp [hqueue] at hq
  | dispatched hr => simp [hready] at hr

/-- A closed scheduler makes nothing active. -/
theorem SchedulerChange.active_subset (change : SchedulerChange config s s') (h : s.Closed) :
    s'.active.keys ⊆ s.active.keys := by
  obtain ⟨haccepting, hqueue, -⟩ := h
  cases change with
  | admitted runner deadline hopen => simp [haccepting] at hopen
  | enqueued runner deadline hopen => simp [haccepting] at hopen
  | released id => exact List.map_subset _ fun _ h => (List.mem_filter.mp h).1
  | promoted hq => simp [hqueue] at hq
  | _ => exact fun _ h => h

/-- What is no longer accepting is closed: `shutdown` empties both lists as it closes. -/
theorem SchedulerChange.closes (change : SchedulerChange config s s')
    (inv : s.accepting = false → s.Closed) (h : s'.accepting = false) : s'.Closed := by
  cases hs : s.accepting with
  | false => exact change.closed_stable (inv hs)
  | true =>
      have hopen : ¬ s.accepting = false := by simp [hs]
      cases change with
      | closed => exact ⟨rfl, rfl, rfl⟩
      | _ => exact absurd h hopen

/-! ### Identifiers -/

/-- The identifier of a key. -/
def idOf : Nat → UInt64
  | 0 => 1
  | key + 1 => followingId (idOf key)

/-- Until the identifiers wrap around they count the submissions. -/
theorem toNat_idOf {key : Nat} (h : key + 1 < UInt64.size) : (idOf key).toNat = key + 1 := by
  induction key with
  | zero => rfl
  | succ key ih =>
      have hkey : (idOf key).toNat = key + 1 := ih (by omega)
      have hone : (1 : UInt64).toNat = 1 := rfl
      have hnext : (idOf key + 1).toNat = key + 1 + 1 := by
        rw [UInt64.toNat_add, hkey, hone]
        exact Nat.mod_eq_of_lt h
      have hlarge : ¬ idOf key + 1 ≤ 1 := by
        rw [UInt64.le_iff_toNat_le, hnext, hone]
        omega
      show (if idOf key + 1 ≤ 1 then 1 else idOf key + 1).toNat = key + 1 + 1
      rw [if_neg hlarge, hnext]

theorem idOf_lt {a b : Nat} (hab : a < b) (hb : b + 1 < UInt64.size) : idOf a < idOf b := by
  rw [UInt64.lt_iff_toNat_lt, toNat_idOf (by omega), toNat_idOf hb]
  omega

theorem idOf_inj {a b : Nat} (ha : a + 1 < UInt64.size) (hb : b + 1 < UInt64.size)
    (h : idOf a = idOf b) : a = b := by
  have := congrArg UInt64.toNat h
  rw [toNat_idOf ha, toNat_idOf hb] at this
  omega

/-! ### Order of dispatch -/

/-- The keys of the owners dispatched, ready and queued, in that order. -/
def SchedulerState.line (s : SchedulerState) : List Nat :=
  (s.dispatched ++ s.ready ++ s.queue).map TaskOwner.key

/-- First come, first served: the line is strictly increasing and made of allocated
keys; and every owner in it has the identifier of its key. -/
structure Fifo (s : SchedulerState) : Prop where
  nextId : s.nextId = idOf s.submissions
  sorted : s.line.Pairwise (· < ·)
  allocated : ∀ key ∈ s.line, key < s.submissions
  ids : ∀ owner ∈ s.dispatched ++ s.ready ++ s.queue, owner.id = idOf owner.key

theorem Fifo.new : Fifo .new where
  nextId := rfl
  sorted := by simp [line, SchedulerState.new]
  allocated := by simp [line, SchedulerState.new]
  ids := by simp [SchedulerState.new]

/-- A new owner joins at the end of the line. -/
theorem Fifo.join (inv : Fifo s) (owners : List TaskOwner) (owner : TaskOwner)
    (old : owners.Sublist (s.dispatched ++ s.ready ++ s.queue))
    (hkey : owner.key = s.submissions) (hid : owner.id = s.nextId) :
    ((owners ++ [owner]).map TaskOwner.key).Pairwise (· < ·) ∧
      (∀ key ∈ (owners ++ [owner]).map TaskOwner.key, key < s.submissions + 1) ∧
      ∀ o ∈ owners ++ [owner], o.id = idOf o.key := by
  have hkeys : (owners.map TaskOwner.key).Sublist s.line := old.map _
  have hlt : ∀ key ∈ owners.map TaskOwner.key, key < s.submissions := fun key h =>
    inv.allocated key (hkeys.subset h)
  refine ⟨?_, fun key h => ?_, fun o ho => ?_⟩
  · rw [List.map_append, List.pairwise_append]
    refine ⟨inv.sorted.sublist hkeys, List.pairwise_singleton _ _, fun a ha b hb => ?_⟩
    obtain rfl : b = owner.key := by simpa using hb
    rw [hkey]
    exact hlt a ha
  · rw [List.map_append, List.mem_append] at h
    rcases h with h | h
    · exact Nat.lt_succ_of_lt (hlt key h)
    · obtain rfl : key = owner.key := by simpa using h
      rw [hkey]
      exact Nat.lt_succ_self _
  · rcases List.mem_append.mp ho with h | h
    · exact inv.ids o (old.subset h)
    · obtain rfl : o = owner := by simpa using h
      rw [hid, hkey, inv.nextId]

/-- Owners may leave the line. -/
theorem Fifo.leave (inv : Fifo s) {owners : List TaskOwner}
    (old : owners.Sublist (s.dispatched ++ s.ready ++ s.queue)) :
    (owners.map TaskOwner.key).Pairwise (· < ·) ∧
      (∀ key ∈ owners.map TaskOwner.key, key < s.submissions) ∧
      ∀ o ∈ owners, o.id = idOf o.key :=
  ⟨inv.sorted.sublist (old.map _), fun key h => inv.allocated key ((old.map _).subset h),
    fun o h => inv.ids o (old.subset h)⟩

theorem SchedulerChange.fifo (change : SchedulerChange config s s') (inv : Fifo s) :
    Fifo s' := by
  have hnext : followingId s.nextId = idOf (s.submissions + 1) := by rw [inv.nextId, idOf]
  cases change with
  | unchanged => exact inv
  | rejected =>
      exact ⟨hnext, inv.sorted, fun key h => Nat.lt_succ_of_lt (inv.allocated key h), inv.ids⟩
  | admitted runner deadline haccepting hlen hempty =>
      obtain ⟨hsorted, halloc, hids⟩ := inv.join (s.dispatched ++ s.ready)
        (s.newOwner runner deadline .active) (by simp [hempty]) rfl rfl
      refine ⟨hnext, ?_, ?_, ?_⟩
      · simpa [line, allocate, hempty] using hsorted
      · simpa [line, allocate, hempty] using halloc
      · simpa [allocate, hempty] using hids
  | enqueued runner deadline haccepting hlen =>
      obtain ⟨hsorted, halloc, hids⟩ := inv.join _
        (s.newOwner runner deadline .queued) (.refl _) rfl rfl
      refine ⟨hnext, ?_, ?_, ?_⟩
      · simpa [line, allocate] using hsorted
      · simpa [line, allocate] using halloc
      · simpa [allocate] using hids
  | removed hq hr =>
      obtain ⟨hsorted, halloc, hids⟩ := inv.leave (((List.Sublist.refl _).append hr).append hq)
      exact ⟨inv.nextId, hsorted, halloc, hids⟩
  | closed =>
      obtain ⟨hsorted, halloc, hids⟩ := inv.leave (((List.Sublist.refl s.dispatched).append
        (List.nil_sublist s.ready)).append (List.nil_sublist s.queue))
      exact ⟨inv.nextId, hsorted, halloc, hids⟩
  | released id => exact ⟨inv.nextId, inv.sorted, inv.allocated, inv.ids⟩
  | @promoted owner queue hq hlen =>
      -- The promoted owner moves from the head of the queue to the end of the ready ones.
      have hline : (s.dispatched ++ (s.ready ++ [owner.promote]) ++ queue).map TaskOwner.key =
          s.line := by
        simp [line, hq, TaskOwner.promote]
      refine ⟨inv.nextId, ?_, ?_, ?_⟩
      · rw [line, hline]
        exact inv.sorted
      · rw [line, hline]
        exact inv.allocated
      · intro o ho
        have hold : o = owner.promote ∨ o ∈ s.dispatched ++ s.ready ++ s.queue := by
          simp only [List.mem_append, List.mem_singleton] at ho
          simp only [List.mem_append, hq, List.mem_cons]
          tauto
        rcases hold with rfl | hold
        · exact inv.ids owner (by simp [hq])
        · exact inv.ids o hold
  | @dispatched owner ready hr =>
      have hsame : s.dispatched ++ [owner] ++ ready ++ s.queue =
          s.dispatched ++ s.ready ++ s.queue := by simp [hr]
      refine ⟨inv.nextId, ?_, ?_, ?_⟩
      · rw [line, hsame]
        exact inv.sorted
      · rw [line, hsame]
        exact inv.allocated
      · rw [hsame]
        exact inv.ids

end Changes

end Libdeno.Executor
