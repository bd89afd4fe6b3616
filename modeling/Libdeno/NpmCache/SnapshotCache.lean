import Libdeno.Library.FifoMap

/-!
# Libdeno.NpmCache.SnapshotCache

The cache of resolution snapshots: a list of entries behind a lock, the oldest first. It
refines the map of bounded size that forgets first what was entered first, so that what
becomes of a key can be said of the history of all calls (`snapshot_cache_fifo`).

A key is compared by value. The lock makes a sequence of the calls of all threads; a panic
poisons it, and `into_inner` goes on.
-/

namespace Libdeno.NpmCache

/-- The entries: keys of type `ManagedNpmSnapshotKey`, with their snapshots. -/
abbrev SnapshotCache (Key Snapshot : Type) := List (Key × Snapshot)

/-- `MAX_ENTRIES`. -/
def maxEntries : Nat := 8

namespace SnapshotCache

open FifoMap (Op)

variable {Key Snapshot : Type}

def keys (entries : SnapshotCache Key Snapshot) : List Key := entries.map Prod.fst

variable [DecidableEq Key]

/-- `get`. -/
def get (entries : SnapshotCache Key Snapshot) (key : Key) : Option Snapshot :=
  (entries.find? fun entry => entry.1 = key).map Prod.snd

/-- The first entry of the key, if it has one, gets the snapshot. -/
def replace (key : Key) (snapshot : Snapshot) :
    SnapshotCache Key Snapshot → Option (SnapshotCache Key Snapshot)
  | [] => none
  | entry :: entries =>
      if entry.1 = key then some ((entry.1, snapshot) :: entries)
      else (replace key snapshot entries).map (entry :: ·)

/-- `insert`. -/
def insert (entries : SnapshotCache Key Snapshot) (key : Key) (snapshot : Snapshot) :
    SnapshotCache Key Snapshot :=
  match replace key snapshot entries with
  | some entries => entries
  | none =>
      let entries := entries ++ [(key, snapshot)]
      if entries.length > maxEntries then entries.eraseIdx 0 else entries

def step (entries : SnapshotCache Key Snapshot) : Op Key Snapshot → SnapshotCache Key Snapshot
  | .insert key snapshot => insert entries key snapshot
  | .get _ => entries

/-- After a history of calls. -/
def run (entries : SnapshotCache Key Snapshot) (ops : List (Op Key Snapshot)) :
    SnapshotCache Key Snapshot :=
  ops.foldl step entries

/-- After a history from the start: the cache is empty. -/
def after (ops : List (Op Key Snapshot)) : SnapshotCache Key Snapshot := run [] ops

/-- What the lookups of a history return. -/
def answers (entries : SnapshotCache Key Snapshot) :
    List (Op Key Snapshot) → List (Option Snapshot)
  | [] => []
  | .insert key snapshot :: ops => answers (insert entries key snapshot) ops
  | .get key :: ops => get entries key :: answers entries ops

/-- The keys a history enters as new. -/
def newKeys (entries : SnapshotCache Key Snapshot) : List (Op Key Snapshot) → List Key
  | [] => []
  | .insert key snapshot :: ops =>
      if key ∈ keys entries then newKeys (insert entries key snapshot) ops
      else key :: newKeys (insert entries key snapshot) ops
  | .get _ :: ops => newKeys entries ops

/-- The call removes the key. -/
def Evicts (entries : SnapshotCache Key Snapshot) (op : Op Key Snapshot) (key : Key) : Prop :=
  key ∈ keys entries ∧ key ∉ keys (step entries op)

/-- Some call of a history removes the key. -/
def EvictedIn (entries : SnapshotCache Key Snapshot) (ops : List (Op Key Snapshot)) (key : Key) :
    Prop :=
  ∃ before op rest, ops = before ++ op :: rest ∧ Evicts (run entries before) op key

variable {entries entries' : SnapshotCache Key Snapshot} {key : Key} {snapshot : Snapshot}

/-! ### The two functions -/

omit [DecidableEq Key] in
theorem mem_keys : key ∈ keys entries ↔ ∃ snapshot, (key, snapshot) ∈ entries := by
  simp [keys]

theorem get_eq_none : get entries key = none ↔ key ∉ keys entries := by
  simp only [get, Option.map_eq_none_iff, List.find?_eq_none, mem_keys, not_exists,
    decide_eq_true_eq]
  constructor
  · intro h snapshot mem
    exact h _ mem rfl
  · rintro h ⟨key', snapshot⟩ mem rfl
    exact h snapshot mem

theorem mem_of_get (h : get entries key = some snapshot) : (key, snapshot) ∈ entries := by
  obtain ⟨⟨key', snapshot'⟩, hfind, rfl⟩ := Option.map_eq_some_iff.mp h
  obtain rfl : key' = key := of_decide_eq_true (List.find?_some hfind :)
  exact List.mem_of_find?_eq_some hfind

theorem replace_eq_none : replace key snapshot entries = none ↔ key ∉ keys entries := by
  induction entries with
  | nil => simp [replace, keys]
  | cons entry entries ih =>
      rw [replace]
      split_ifs with h
      · simp [keys, h]
      · rw [Option.map_eq_none_iff, ih]
        simp [keys, Ne.symm h]

/-- A replacement: the keys stay where they are. -/
theorem keys_replace (h : replace key snapshot entries = some entries') :
    keys entries' = keys entries := by
  induction entries generalizing entries' with
  | nil => cases h
  | cons entry entries ih =>
      rw [replace] at h
      split_ifs at h with hkey
      · obtain rfl := Option.some.inj h
        rfl
      · obtain ⟨rest, hrest, rfl⟩ := Option.map_eq_some_iff.mp h
        exact congrArg (entry.1 :: ·) (ih hrest)

/-- The snapshots of the other keys stay, and where keys are distinct this one has the new
one. -/
theorem mem_replace (h : replace key snapshot entries = some entries')
    (nodup : (keys entries).Nodup) {entry : Key × Snapshot} (mem : entry ∈ entries') :
    entry = (key, snapshot) ∨ entry.1 ≠ key ∧ entry ∈ entries := by
  induction entries generalizing entries' with
  | nil => cases h
  | cons first entries ih =>
      obtain ⟨hfirst, hrest⟩ := List.nodup_cons.mp nodup
      rw [replace] at h
      split_ifs at h with hkey
      · obtain rfl := Option.some.inj h
        rcases List.mem_cons.mp mem with rfl | hmem
        · exact .inl (by rw [hkey])
        · refine .inr ⟨?_, List.mem_cons_of_mem _ hmem⟩
          rintro rfl
          exact hfirst (hkey ▸ List.mem_map_of_mem hmem)
      · obtain ⟨rest, hreplace, rfl⟩ := Option.map_eq_some_iff.mp h
        rcases List.mem_cons.mp mem with rfl | hmem
        · exact .inr ⟨hkey, List.mem_cons_self⟩
        · exact (ih hreplace hrest hmem).imp_right fun h => ⟨h.1, List.mem_cons_of_mem _ h.2⟩

theorem insert_of_mem (h : key ∈ keys entries) :
    replace key snapshot entries = some (insert entries key snapshot) := by
  rw [insert]
  cases hreplace : replace key snapshot entries with
  | none => exact absurd h (replace_eq_none.mp hreplace)
  | some entries' => rfl

theorem insert_of_notMem (h : key ∉ keys entries) :
    insert entries key snapshot =
      if maxEntries < (entries ++ [(key, snapshot)]).length then
        (entries ++ [(key, snapshot)]).tail
      else entries ++ [(key, snapshot)] := by
  rw [insert, replace_eq_none.mpr h]
  simp only [gt_iff_lt, List.eraseIdx_zero]

/-- Replacing a value leaves the keys and their order. -/
theorem keys_insert_of_mem (h : key ∈ keys entries) :
    keys (insert entries key snapshot) = keys entries :=
  keys_replace (insert_of_mem h)

/-! ### The abstract map -/

/-- The entries are those of the keys the map holds. -/
structure Refines (entries : SnapshotCache Key Snapshot) (m : FifoMap Key Snapshot) : Prop where
  held : keys entries = m.held maxEntries
  value : ∀ entry ∈ entries, m.value entry.1 = some entry.2
  distinct : m.Distinct maxEntries

variable {m : FifoMap Key Snapshot}

omit [DecidableEq Key] in
theorem refines_empty : Refines ([] : SnapshotCache Key Snapshot) .empty where
  held := by simp [keys, FifoMap.held, FifoMap.empty]
  value := by simp
  distinct := FifoMap.distinct_empty

omit [DecidableEq Key] in
theorem Refines.nodup (inv : Refines entries m) : (keys entries).Nodup :=
  inv.held ▸ inv.distinct

/-- A lookup finds what the map has. -/
theorem Refines.get (inv : Refines entries m) (key : Key) :
    SnapshotCache.get entries key = m.get maxEntries key := by
  rw [FifoMap.get, ← inv.held]
  cases hget : SnapshotCache.get entries key with
  | none => rw [if_neg (get_eq_none.mp hget)]
  | some snapshot =>
      have hmem := mem_of_get hget
      rw [if_pos (mem_keys.mpr ⟨snapshot, hmem⟩)]
      exact (inv.value _ hmem).symm

theorem Refines.insert (inv : Refines entries m) (key : Key) (snapshot : Snapshot) :
    Refines (SnapshotCache.insert entries key snapshot) (m.insert maxEntries key snapshot) := by
  by_cases h : key ∈ keys entries
  -- A replacement: both sides keep their keys.
  · refine ⟨?_, ?_, inv.distinct.insert⟩
    · rw [keys_insert_of_mem h, FifoMap.held_insert_of_mem (inv.held ▸ h)]
      exact inv.held
    · intro entry mem
      rcases mem_replace (insert_of_mem h) inv.nodup mem with rfl | ⟨hne, hmem⟩
      · exact FifoMap.value_insert_self
      · exact (FifoMap.value_insert_of_ne hne).trans (inv.value entry hmem)
  -- A new key: both sides append it, and may lose their first.
  · have hkeys : ∀ list : SnapshotCache Key Snapshot, keys list.tail = (keys list).tail :=
      fun list => List.map_tail
    refine ⟨?_, ?_, inv.distinct.insert⟩
    · rw [insert_of_notMem h, FifoMap.held_insert (inv.held ▸ h), ← inv.held, apply_ite keys,
        hkeys]
      simp [keys]
    · intro entry mem
      have hmem : entry ∈ entries ++ [(key, snapshot)] := by
        rw [insert_of_notMem h] at mem
        split_ifs at mem
        · exact List.mem_of_mem_tail mem
        · exact mem
      rcases List.mem_append.mp hmem with hold | hnew
      · have hne : entry.1 ≠ key := by
          rintro rfl
          exact h (List.mem_map_of_mem hold)
        exact (FifoMap.value_insert_of_ne hne).trans (inv.value entry hold)
      · obtain rfl := List.mem_singleton.mp hnew
        exact FifoMap.value_insert_self

theorem Refines.step (inv : Refines entries m) (op : Op Key Snapshot) :
    Refines (SnapshotCache.step entries op) (m.step maxEntries op) := by
  cases op with
  | insert key snapshot => exact inv.insert key snapshot
  | get key => exact inv

theorem Refines.run (inv : Refines entries m) (ops : List (Op Key Snapshot)) :
    Refines (SnapshotCache.run entries ops) (m.run maxEntries ops) := by
  induction ops generalizing entries m with
  | nil => exact inv
  | cons op ops ih => exact ih (inv.step op)

/-- Every lookup of a history finds what the map has. -/
theorem Refines.answers (inv : Refines entries m) (ops : List (Op Key Snapshot)) :
    SnapshotCache.answers entries ops = m.answers maxEntries ops := by
  induction ops generalizing entries m with
  | nil => rfl
  | cons op ops ih =>
      cases op with
      | insert key snapshot => exact ih (inv.insert key snapshot)
      | get key => exact congrArg₂ List.cons (inv.get key) (ih inv)

/-- The map enters the keys the history does. -/
theorem Refines.entered (inv : Refines entries m) (ops : List (Op Key Snapshot)) :
    (m.run maxEntries ops).entered = m.entered ++ newKeys entries ops := by
  induction ops generalizing entries m with
  | nil => exact (List.append_nil _).symm
  | cons op ops ih =>
      cases op with
      | insert key snapshot =>
          have hrun := ih (inv.insert key snapshot)
          rw [newKeys, FifoMap.run, List.foldl_cons]
          rw [FifoMap.run] at hrun
          rw [FifoMap.step, hrun, FifoMap.insert, ← inv.held]
          split_ifs
          · rfl
          · rw [List.append_assoc]
            rfl
      | get key => exact ih inv

theorem refines_after (ops : List (Op Key Snapshot)) :
    Refines (after ops) (FifoMap.empty.run maxEntries ops) :=
  refines_empty.run ops

/-! ### Histories -/

variable {op : Op Key Snapshot} {ops : List (Op Key Snapshot)}

theorem run_append (entries : SnapshotCache Key Snapshot) (first second : List (Op Key Snapshot)) :
    run entries (first ++ second) = run (run entries first) second :=
  List.foldl_append

theorem newKeys_append (entries : SnapshotCache Key Snapshot)
    (first second : List (Op Key Snapshot)) :
    newKeys entries (first ++ second) =
      newKeys entries first ++ newKeys (run entries first) second := by
  induction first generalizing entries with
  | nil => rfl
  | cons op first ih =>
      cases op with
      | insert key snapshot =>
          rw [List.cons_append, newKeys, newKeys, ih]
          split_ifs
          · rfl
          · rfl
      | get key => exact ih entries

/-- A key that was entered was entered by some call. -/
theorem newKeys_split {older later : List Key}
    (h : newKeys entries ops = older ++ key :: later) :
    ∃ start snapshot rest, ops = start ++ .insert key snapshot :: rest ∧
      key ∉ keys (run entries start) ∧
      newKeys (run entries (start ++ [.insert key snapshot])) rest = later := by
  induction ops generalizing entries older with
  | nil => simp [newKeys] at h
  | cons op ops ih =>
      -- Behind the first call, or that call.
      have hbehind : ∀ {older}, newKeys (step entries op) ops = older ++ key :: later →
          ∃ start snapshot rest, op :: ops = start ++ .insert key snapshot :: rest ∧
            key ∉ keys (run entries start) ∧
            newKeys (run entries (start ++ [.insert key snapshot])) rest = later := by
        intro older h
        obtain ⟨start, snapshot, rest, rfl, hnew, hlater⟩ := ih h
        exact ⟨op :: start, snapshot, rest, rfl, hnew, hlater⟩
      cases op with
      | get key' => exact hbehind h
      | insert key' snapshot =>
          rw [newKeys] at h
          split_ifs at h with hmem
          · exact hbehind h
          · cases older with
            | nil =>
                obtain ⟨rfl, hlater⟩ := List.cons_eq_cons.mp h
                exact ⟨[], snapshot, ops, rfl, hmem, hlater⟩
            | cons first older => exact hbehind (List.cons_eq_cons.mp h).2

/-- Only an insertion of a key brings it in. -/
theorem mem_keys_of_step (h : ¬ op.Inserts key) (mem : key ∈ keys (step entries op)) :
    key ∈ keys entries := by
  cases op with
  | get key' => exact mem
  | insert key' snapshot =>
      by_cases hmem : key' ∈ keys entries
      · rwa [step, keys_insert_of_mem hmem] at mem
      · obtain ⟨snapshot', hentry⟩ := mem_keys.mp mem
        rw [step, insert_of_notMem hmem] at hentry
        have hold : (key, snapshot') ∈ entries ++ [(key', snapshot)] := by
          split_ifs at hentry
          · exact List.mem_of_mem_tail hentry
          · exact hentry
        rcases List.mem_append.mp hold with hold | hnew
        · exact mem_keys.mpr ⟨snapshot', hold⟩
        · rw [List.mem_singleton, Prod.mk.injEq] at hnew
          exact absurd ⟨snapshot, by rw [hnew.1]⟩ h

theorem notMem_keys_run (h : ∀ op ∈ ops, ¬ op.Inserts key) (absent : key ∉ keys entries) :
    key ∉ keys (run entries ops) := by
  induction ops generalizing entries with
  | nil => exact absent
  | cons op ops ih =>
      obtain ⟨hop, hops⟩ := List.forall_mem_cons.mp h
      exact ih hops fun mem => absent (mem_keys_of_step hop mem)

theorem evictedIn_cons (entries : SnapshotCache Key Snapshot) (op : Op Key Snapshot)
    (ops : List (Op Key Snapshot)) (key : Key) :
    EvictedIn entries (op :: ops) key ↔
      Evicts entries op key ∨ EvictedIn (step entries op) ops key := by
  constructor
  · rintro ⟨before, op', rest, heq, hevicts⟩
    cases before with
    | nil =>
        obtain ⟨rfl, rfl⟩ := List.cons_eq_cons.mp heq
        exact .inl hevicts
    | cons first before =>
        obtain ⟨rfl, rfl⟩ := List.cons_eq_cons.mp heq
        exact .inr ⟨before, op', rest, rfl, hevicts⟩
  · rintro (hevicts | ⟨before, op', rest, rfl, hevicts⟩)
    · exact ⟨[], op, ops, rfl, hevicts⟩
    · exact ⟨op :: before, op', rest, rfl, hevicts⟩

/-- A key that is not inserted again is there until it is evicted. -/
theorem mem_keys_run_iff (h : ∀ op ∈ ops, ¬ op.Inserts key) (mem : key ∈ keys entries) :
    key ∈ keys (run entries ops) ↔ ¬ EvictedIn entries ops key := by
  induction ops generalizing entries with
  | nil =>
      refine iff_of_true mem ?_
      rintro ⟨before, op, rest, heq, -⟩
      cases before <;> cases heq
  | cons op ops ih =>
      obtain ⟨hop, hops⟩ := List.forall_mem_cons.mp h
      rw [evictedIn_cons]
      by_cases hstep : key ∈ keys (step entries op)
      · have hevicts : ¬ Evicts entries op key := fun h => h.2 hstep
        rw [or_iff_right hevicts]
        exact ih hops hstep
      -- Once it is gone, only an insertion would bring it back.
      · have hevicts : Evicts entries op key := ⟨mem, hstep⟩
        have habsent : key ∉ keys (run (step entries op) ops) := notMem_keys_run hops hstep
        exact iff_of_false habsent fun h => h (.inl hevicts)

theorem mem_keys_insert (inv : Refines entries m) (key : Key) (snapshot : Snapshot) :
    key ∈ keys (insert entries key snapshot) := by
  rw [(inv.insert key snapshot).held]
  exact FifoMap.mem_held_insert (by decide)

/-- From the insertion of a key on, it has the inserted snapshot until it is evicted or
inserted again. -/
theorem get_since {start since : List (Op Key Snapshot)}
    (h : ∀ op ∈ since, ¬ op.Inserts key) :
    (EvictedIn (after (start ++ [.insert key snapshot])) since key →
      get (after (start ++ .insert key snapshot :: since)) key = none) ∧
    (¬ EvictedIn (after (start ++ [.insert key snapshot])) since key →
      get (after (start ++ .insert key snapshot :: since)) key = some snapshot) := by
  have inv := refines_after (start ++ .insert key snapshot :: since)
  have hafter : after (start ++ .insert key snapshot :: since) =
      run (after (start ++ [.insert key snapshot])) since := by
    rw [after, after, ← run_append, List.append_assoc]
    rfl
  have hmem : key ∈ keys (after (start ++ [.insert key snapshot])) := by
    rw [after, run_append]
    exact mem_keys_insert (refines_after start) key snapshot
  have hpresent := mem_keys_run_iff h hmem
  rw [← hafter] at hpresent
  refine ⟨fun hevicted => ?_, fun hkept => ?_⟩
  · rw [get_eq_none, hpresent]
    exact fun h => h hevicted
  · -- What the abstract map has for the key has not changed since.
    rw [inv.get, FifoMap.get, ← inv.held, if_pos (hpresent.mpr hkept), FifoMap.run,
      List.foldl_append]
    exact (FifoMap.value_run since h).trans FifoMap.value_insert_self

/-- A key is evicted behind the call that entered it and as many new keys as there are
entries. -/
theorem Evicts.entered (h : Evicts (after ops) op key) :
    ∃ start snapshot rest, ops = start ++ .insert key snapshot :: rest ∧
      key ∉ keys (after start) ∧
      (newKeys (after (start ++ [.insert key snapshot])) (rest ++ [op])).length = maxEntries ∧
      (newKeys (after (start ++ [.insert key snapshot])) (rest ++ [op])).Nodup ∧
      key ∉ newKeys (after (start ++ [.insert key snapshot])) (rest ++ [op]) := by
  obtain ⟨hmem, hlost⟩ := h
  have inv := refines_after ops
  cases op with
  | get key' => exact absurd hmem hlost
  | insert key' snapshot' =>
      rw [step, (inv.insert key' snapshot').held] at hlost
      rw [inv.held] at hmem
      obtain ⟨hnew, older, later, hentered, hlen, hnodup, hother⟩ :=
        inv.distinct.evicted hmem hlost
      rw [refines_empty.entered ops] at hentered
      obtain ⟨start, snapshot, rest, rfl, habsent, hlater⟩ := newKeys_split hentered
      have hothers : newKeys (after (start ++ [.insert key snapshot]))
          (rest ++ [.insert key' snapshot']) = later ++ [key'] := by
        rw [newKeys_append, after, hlater, ← run_append, List.append_assoc,
          List.singleton_append, newKeys, ← after, inv.held, if_neg hnew]
        rfl
      refine ⟨start, snapshot, rest, rfl, habsent, ?_⟩
      rw [hothers]
      exact ⟨hlen, hnodup, hother⟩

/-- **The snapshot cache is a first-in-first-out map.** After every history of insertions and
lookups, the lookups returned what the abstract map has; no two entries have one key, and there
are at most `maxEntries`; a lookup of a key returns what was last inserted for it, and nothing
if the key was evicted since or was never inserted; a key is evicted by a call only if behind
the call that entered it exactly `maxEntries` distinct other keys were entered as new, this
call's the last of them; and replacing a value leaves the keys in the order of their age. -/
theorem snapshot_cache_fifo (ops : List (Op Key Snapshot)) :
    answers [] ops = FifoMap.empty.answers maxEntries ops ∧
    (keys (after ops)).Nodup ∧ (after ops).length ≤ maxEntries ∧
    (∀ key, (∀ op ∈ ops, ¬ op.Inserts key) → get (after ops) key = none) ∧
    (∀ start key snapshot since, ops = start ++ .insert key snapshot :: since →
      (∀ op ∈ since, ¬ op.Inserts key) →
      (EvictedIn (after (start ++ [.insert key snapshot])) since key →
        get (after ops) key = none) ∧
      (¬ EvictedIn (after (start ++ [.insert key snapshot])) since key →
        get (after ops) key = some snapshot)) ∧
    (∀ op key, Evicts (after ops) op key →
      ∃ start snapshot rest, ops = start ++ .insert key snapshot :: rest ∧
        key ∉ keys (after start) ∧
        (newKeys (after (start ++ [.insert key snapshot])) (rest ++ [op])).length = maxEntries ∧
        (newKeys (after (start ++ [.insert key snapshot])) (rest ++ [op])).Nodup ∧
        key ∉ newKeys (after (start ++ [.insert key snapshot])) (rest ++ [op])) ∧
    ∀ key snapshot, key ∈ keys (after ops) →
      keys (insert (after ops) key snapshot) = keys (after ops) := by
  have inv := refines_after ops
  refine ⟨refines_empty.answers ops, inv.nodup, ?_, ?_, ?_, ?_, ?_⟩
  · have hlen := congrArg List.length inv.held
    rw [keys, List.length_map] at hlen
    rw [hlen]
    exact FifoMap.length_held_le _
  · intro key hnever
    exact get_eq_none.mpr (notMem_keys_run hnever (by simp [keys]))
  · rintro start key snapshot since rfl hsince
    exact get_since hsince
  · exact fun op key h => h.entered
  · exact fun key snapshot hmem => keys_insert_of_mem hmem

/-- Nine keys are one too many, and an inserted snapshot of a held key is a replacement. -/
example : keys (after ((List.range 9).map fun n => Op.insert n n)) = [1, 2, 3, 4, 5, 6, 7, 8] ∧
    get (after (((List.range 9).map fun n => Op.insert n n) ++ [.insert 1 0])) 1 = some 0 := by
  decide

end SnapshotCache

end Libdeno.NpmCache
