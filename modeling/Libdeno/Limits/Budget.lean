import Libdeno.Io
import Libdeno.Library.Pool
import Libdeno.Library.Transition

/-!
# Libdeno.Limits.Budget

`reserve`: one slot of a counter that any number of threads share, and the guard that gives
the slot back when it is dropped. The load, each compare-exchange and the `fetch_sub` of a drop
are steps of their own.

The counter is kept with all the values it had. A load, and a compare-exchange that fails, read
any of these, as a thread may on hardware that is weakly ordered; only an exchange that succeeds
has read the last one. A weak exchange fails whenever it likes.
-/

namespace Libdeno.Limits

open Transition

variable {w : Nat}

/-! ### The counter -/

/-- The counter of `w` bits, and the values it had before. -/
structure Counter (w : Nat) where
  value : BitVec w
  past : List (BitVec w)

namespace Counter

def new : Counter w := { value := 0, past := [] }

/-- What a load may read. -/
def values (counter : Counter w) : List (BitVec w) := counter.value :: counter.past

def store (counter : Counter w) (value : BitVec w) : Counter w :=
  { value, past := counter.values }

@[simp] theorem value_store (counter : Counter w) (value : BitVec w) :
    (counter.store value).value = value := rfl

@[simp] theorem values_store (counter : Counter w) (value : BitVec w) :
    (counter.store value).values = value :: counter.values := rfl

end Counter

/-! ### Calls of `reserve` -/

/-- Where a call of `reserve` stands, and then the guard it returned. -/
inductive Pc (w : Nat)
  | load
  /-- At the top of the loop. -/
  | loop (active : BitVec w)
  | failed (error : IoError)
  /-- A live `BudgetGuard`. -/
  | guard
  | dropped
  deriving DecidableEq

def Pc.isGuard : Pc w → Bool
  | .guard => true
  | _ => false

/-- The error of `reserve`. -/
def exhausted (what : String) (active max : BitVec w) : IoError :=
  { kind := .wouldBlock
    message := s!"{what} resource budget exhausted: {active.toNat} active, " ++
      s!"maximum {max.toNat}" }

/-- A call of `reserve`, with a maximum that is within the limit of its counter. -/
structure Call (limit : BitVec w) where
  max : BitVec w
  what : String
  pc : Pc w
  max_le : max ≤ limit

/-- `reserve`, of a counter whose callers all give the same maximum. -/
def reserve (max : BitVec w) (what : String) : Call max :=
  { max, what, pc := .load, max_le := Nat.le_refl _ }

namespace Call

variable {limit : BitVec w}

def goTo (call : Call limit) (pc : Pc w) : Call limit := { call with pc }

@[simp] theorem pc_goTo (call : Call limit) (pc : Pc w) : (call.goTo pc).pc = pc := rfl

@[simp] theorem max_goTo (call : Call limit) (pc : Pc w) : (call.goTo pc).max = call.max := rfl

end Call

variable {limit : BitVec w}

/-- One step of a call, or of its guard. -/
inductive CallStep (m : Counter w) : Call limit → Counter w → Call limit → Prop
  | load {call : Call limit} {active : BitVec w} : call.pc = .load → active ∈ m.values →
      CallStep m call m (call.goTo (.loop active))
  | exhausted {call : Call limit} {active : BitVec w} : call.pc = .loop active →
      call.max ≤ active →
      CallStep m call m (call.goTo (.failed (exhausted call.what active call.max)))
  | exchanged {call : Call limit} {active : BitVec w} : call.pc = .loop active →
      active < call.max → m.value = active →
      CallStep m call (m.store (active + 1)) (call.goTo .guard)
  /-- The exchange failed and read `next`. -/
  | retry {call : Call limit} {active next : BitVec w} : call.pc = .loop active →
      active < call.max → next ∈ m.values → CallStep m call m (call.goTo (.loop next))
  /-- `drop` of the guard. -/
  | drop {call : Call limit} : call.pc = .guard →
      CallStep m call (m.store (m.value - 1)) (call.goTo .dropped)

/-- A call moves and starts no other. -/
def ThreadStep (m : Counter w) (call : Call limit) (m' : Counter w) (call' : Call limit)
    (spawned : List (Call limit)) : Prop :=
  CallStep m call m' call' ∧ spawned = []

/-- `reserve` is called, by any thread at any time. -/
inductive CallerStep (m : Counter w) : Counter w → List (Call limit) → Prop
  | reserve (call : Call limit) : call.pc = .load → CallerStep m m [call]

/-- The counter and all calls. -/
abbrev Budget (limit : BitVec w) := Pool (Counter w) (Call limit)

def Budget.initial : Budget limit := { memory := .new, threads := [] }

def Budget.liveGuards (s : Budget limit) : Nat := s.threads.countP (·.pc.isGuard)

abbrev BudgetStep : Budget limit → Budget limit → Prop := Pool.Step ThreadStep CallerStep

/-- The call at a place of the pool takes a step. -/
def CallMoves (i : Nat) (s s' : Budget limit) : Prop :=
  ∃ before call call' after m', s.threads = before ++ call :: after ∧ before.length = i ∧
    CallStep s.memory call m' call' ∧
    s' = { memory := m', threads := before ++ call' :: after }

/-! ### The count -/

theorem toNat_add_one {active max : BitVec w} (h : active < max) :
    (active + 1).toNat = active.toNat + 1 := by
  have hlt : active.toNat + 1 < 2 ^ w := Nat.lt_of_le_of_lt (BitVec.lt_def.mp h) max.isLt
  have hone : (1 : BitVec w).toNat = 1 := by
    show 1 % 2 ^ w = 1
    exact Nat.mod_eq_of_lt (by omega)
  rw [BitVec.toNat_add, hone, Nat.mod_eq_of_lt hlt]

theorem toNat_sub_one (value : BitVec w) (h : 0 < value.toNat) :
    (value - 1).toNat = value.toNat - 1 := by
  have hlt := value.isLt
  have hone : (1 : BitVec w).toNat = 1 := by
    show 1 % 2 ^ w = 1
    exact Nat.mod_eq_of_lt (by omega)
  rw [BitVec.toNat_sub, hone, show 2 ^ w - 1 + value.toNat = value.toNat - 1 + 2 ^ w by omega,
    Nat.add_mod_right]
  exact Nat.mod_eq_of_lt (by omega)

/-- A call's contribution to the count. -/
def Call.guards (call : Call limit) : ℕ := call.pc.isGuard.toNat

theorem liveGuards_eq (s : Budget limit) : s.liveGuards = Pool.tally Call.guards s.threads :=
  (Pool.tally_toNat _ _).symm

/-- The counter counts the guards, and was never above the limit. -/
structure Counts (limit : BitVec w) (m : Counter w) (guards : ℕ) : Prop where
  count : m.value.toNat = guards
  bound : ∀ value ∈ m.values, value ≤ limit

theorem Counts.store {m : Counter w} {value : BitVec w} {n n' : ℕ} (inv : Counts limit m n)
    (count : value.toNat = n') (le : value ≤ limit) : Counts limit (m.store value) n' where
  count := count
  bound := List.forall_mem_cons.mpr ⟨le, inv.bound⟩

variable {m m' : Counter w} {call call' : Call limit} {s s' : Budget limit}

theorem CallStep.counts {rest : ℕ} (step : CallStep m call m' call')
    (inv : Counts limit m (call.guards + rest)) : Counts limit m' (call'.guards + rest) := by
  cases step with
  | load hpc _ => simpa [Call.guards, hpc, Pc.isGuard] using inv
  | exhausted hpc _ => simpa [Call.guards, hpc, Pc.isGuard] using inv
  | retry hpc _ _ => simpa [Call.guards, hpc, Pc.isGuard] using inv
  | @exchanged active hpc hlt hvalue =>
      -- Whatever was read first, the counter has this value now.
      have hcount := inv.count
      simp only [Call.guards, hpc, hvalue, Pc.isGuard, Bool.toNat_false, Nat.zero_add] at hcount
      refine inv.store ?_ ?_
      · rw [toNat_add_one hlt, hcount, Nat.add_comm]
        rfl
      · rw [BitVec.le_def, toNat_add_one hlt]
        exact Nat.le_trans (BitVec.lt_def.mp hlt) (BitVec.le_def.mp call.max_le)
  | drop hpc =>
      have hcount := inv.count
      have hle := inv.bound m.value List.mem_cons_self
      simp only [Call.guards, hpc, Pc.isGuard, Bool.toNat_true] at hcount
      have hpred := toNat_sub_one m.value (by omega)
      refine inv.store ?_ ?_
      · rw [hpred, hcount, Nat.add_sub_cancel_left]
        exact (Nat.zero_add _).symm
      · rw [BitVec.le_def, hpred]
        exact Nat.le_trans (Nat.sub_le _ _) (BitVec.le_def.mp hle)

theorem BudgetStep.counts (step : BudgetStep s s')
    (inv : Counts limit s.memory s.liveGuards) : Counts limit s'.memory s'.liveGuards := by
  rw [liveGuards_eq] at inv ⊢
  refine Pool.Step.tally (I := Counts limit) ?_ ?_ step inv
  · rintro m call m' call' spawned rest ⟨hstep, rfl⟩ hinv
    exact hstep.counts hinv
  · rintro m m' spawned rest ⟨call, hpc⟩ hinv
    simpa [Call.guards, Pc.isGuard, hpc] using hinv

theorem Budget.counts (run : Run BudgetStep Budget.initial s) :
    Counts limit s.memory s.liveGuards :=
  Run.invariant (P := fun s : Budget limit => Counts limit s.memory s.liveGuards)
    (fun _ _ inv step => step.counts inv) run
    { count := rfl
      bound := List.forall_mem_singleton.mpr (Nat.zero_le _) }

/-- A guard that is dropped finds its reservation in the counter. -/
theorem value_pos_of_guard (run : Run BudgetStep Budget.initial s) (mem : call ∈ s.threads)
    (h : call.pc = .guard) : 0 < s.memory.value.toNat := by
  rw [(Budget.counts run).count]
  exact List.countP_pos_iff.mpr ⟨call, mem, by rw [h]; rfl⟩

/-! ### Calls that fail -/

/-- The call has taken its slot. -/
def Pc.taken : Pc w → Bool
  | .guard | .dropped => true
  | _ => false

theorem CallStep.taken (step : CallStep m call m' call') (h : call.pc.taken = true) :
    call'.pc.taken = true := by
  cases step with
  | load hpc _ => simp [hpc, Pc.taken] at h
  | exhausted hpc _ => simp [hpc, Pc.taken] at h
  | retry hpc _ _ => simp [hpc, Pc.taken] at h
  | exchanged _ _ _ => rfl
  | drop _ => rfl

/-- A step that changes the counter takes the slot or gives it back. -/
theorem CallStep.taken_of_ne (step : CallStep m call m' call') (h : m' ≠ m) :
    call'.pc.taken = true := by
  cases step with
  | load _ _ => exact absurd rfl h
  | exhausted _ _ => exact absurd rfl h
  | retry _ _ _ => exact absurd rfl h
  | exchanged _ _ _ => rfl
  | drop _ => rfl

/-- A slot that was taken stays so. -/
theorem taken_run {i : ℕ} (run : Run BudgetStep s s') (h : s.threads[i]? = some call)
    (taken : call.pc.taken = true) :
    ∃ call', s'.threads[i]? = some call' ∧ call'.pc.taken = true := by
  induction run with
  | refl => exact ⟨call, h, taken⟩
  | tail _ step ih =>
      obtain ⟨call₁, h₁, htaken⟩ := ih
      -- A step of another thread leaves the call as it is.
      obtain ⟨call₂, h₂, rfl | ⟨spawned, hmove, -⟩⟩ := Pool.Step.getElem? step h₁
      · exact ⟨call₂, h₂, htaken⟩
      · exact ⟨call₂, h₂, hmove.taken htaken⟩

theorem CallMoves.step {i : ℕ} (moves : CallMoves i s s') : BudgetStep s s' := by
  obtain ⟨before, call, call', after, m', hthreads, -, hstep, rfl⟩ := moves
  have hmove : ThreadStep s.memory call m' call' [] := ⟨hstep, rfl⟩
  have hpool : BudgetStep { memory := s.memory, threads := before ++ call :: after }
      { memory := m', threads := before ++ call' :: after ++ [] } := .thread before after hmove
  rw [List.append_nil, ← hthreads] at hpool
  exact hpool

theorem CallMoves.moved {i : ℕ} (moves : CallMoves i s s') :
    ∃ call call', s'.threads[i]? = some call' ∧
      CallStep s.memory call s'.memory call' := by
  obtain ⟨before, call, call', after, m', -, rfl, step, rfl⟩ := moves
  exact ⟨call, call', by simp, step⟩

/-- No step of a call that ends in an error changed the counter. -/
theorem failed_memory {u u' : Budget limit} {i : ℕ} {error : IoError}
    (moves : CallMoves i u u') (run : Run BudgetStep u' s) (h : s.threads[i]? = some call)
    (failed : call.pc = .failed error) : u'.memory = u.memory := by
  obtain ⟨call₁, call₂, hplace, step⟩ := moves.moved
  by_contra hne
  -- Then the call would have had its slot, and it would not have failed since.
  obtain ⟨call₃, h₃, htaken⟩ := taken_run run hplace (step.taken_of_ne hne)
  rw [h] at h₃
  obtain rfl := Option.some.inj h₃
  rw [failed] at htaken
  cases htaken

/-- **Reservations are counted.** In every run, with any number of calls and guards at a time,
the counter is the number of the live guards and was never above the limit; a call that gets
its guard leaves it within the call's own maximum; and no step of a call that fails, whenever
it was taken, changed it. -/
theorem reservations_counted (s : Budget limit) (run : Run BudgetStep Budget.initial s) :
    s.memory.value.toNat = s.liveGuards ∧
    (∀ value ∈ s.memory.values, value ≤ limit) ∧
    (∀ call ∈ s.threads, ∀ m' call', CallStep s.memory call m' call' → call'.pc = .guard →
      m'.value = s.memory.value + 1 ∧ m'.value ≤ call.max) ∧
    ∀ u u' i, Run BudgetStep Budget.initial u → CallMoves i u u' → Run BudgetStep u' s →
      (∃ call error, s.threads[i]? = some call ∧ call.pc = .failed error) →
      u'.memory = u.memory := by
  have inv := Budget.counts run
  refine ⟨inv.count, inv.bound, ?_, ?_⟩
  · intro call _ m' call' step hguard
    cases step with
    | exchanged hpc hlt hvalue =>
        rw [Counter.value_store, hvalue]
        refine ⟨rfl, ?_⟩
        rw [BitVec.le_def, toNat_add_one hlt]
        exact BitVec.lt_def.mp hlt
    | load hpc _ => cases hguard
    | exhausted hpc _ => cases hguard
    | retry hpc _ _ => cases hguard
    | drop hpc => cases hguard
  · rintro u u' i - moves hrun ⟨call, error, hcall, hfailed⟩
    exact failed_memory moves hrun hcall hfailed

/-- Of two calls for one slot the second lost the race, read a stale value and then failed. -/
def sampleRefused : Budget (1 : BitVec 64) where
  memory := { value := 1, past := [0] }
  threads :=
    [(reserve 1 "reader").goTo .guard,
      (reserve 1 "reader").goTo (.failed (exhausted "reader" (1 : BitVec 64) 1))]

theorem sampleRefused_run : Run BudgetStep Budget.initial sampleRefused := by
  refine .head (.environment [] (.reserve (reserve 1 "reader") rfl)) ?_
  refine .head (.environment [_] (.reserve (reserve 1 "reader") rfl)) ?_
  refine .head (.thread [] [_] ⟨.load rfl List.mem_cons_self, rfl⟩) ?_
  refine .head (.thread [_] [] ⟨.load rfl List.mem_cons_self, rfl⟩) ?_
  refine .head (.thread [] [_] ⟨.exchanged rfl (by decide) rfl, rfl⟩) ?_
  -- The first failed exchange reads the old value, the second one the new value.
  refine .head (.thread [_] [] ⟨.retry rfl (by decide) (List.mem_of_getLast? rfl), rfl⟩) ?_
  refine .head (.thread [_] [] ⟨.retry rfl (by decide) List.mem_cons_self, rfl⟩) ?_
  exact .head (.thread [_] [] ⟨.exhausted rfl (by decide), rfl⟩) .refl

/-- The counter is at the one guard that is live. -/
theorem reservations_counted_refused :
    sampleRefused.memory.value.toNat = sampleRefused.liveGuards ∧
      sampleRefused.liveGuards = 1 ∧ ∀ value ∈ sampleRefused.memory.values, value ≤ 1 := by
  obtain ⟨hcount, hbound, -, -⟩ := reservations_counted sampleRefused sampleRefused_run
  exact ⟨hcount, rfl, hbound⟩

end Libdeno.Limits
