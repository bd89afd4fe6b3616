import Libdeno.Output.Redirect

/-!
# Libdeno.Output.Restored

A captured run leaves the descriptors of the process as the host made them
(`captured_run_restores`). The proof carries what the thread of the run holds (`Hold`): the
descriptors it has opened or redirected, the slots of the reader budget it has reserved and not
handed to a thread, and the readers it has not told to stop. `Holds` says what the process looks
like then; the other threads keep it, and every call has one lemma that says how it moves.
-/

namespace Libdeno.Output.Redirect

open Descriptors Hoare

/-- What the thread of the run holds. -/
structure Hold where
  mine : Nat → Option (Descriptor File)
  pending : Nat
  running : List Nat

namespace Hold

/-- Nothing. -/
def empty : Hold := { mine := fun _ => none, pending := 0, running := [] }

def put (h : Hold) (fd : Nat) (descriptor : Option (Descriptor File)) : Hold :=
  { h with mine := fun other => if other = fd then descriptor else h.mine other }

@[grind =]
theorem put_mine (h : Hold) (fd other : Nat) (descriptor : Option (Descriptor File)) :
    (h.put fd descriptor).mine other = if other = fd then descriptor else h.mine other := rfl

/-- The descriptors of a list are given up. -/
def without (h : Hold) (fds : List Nat) : Hold :=
  { h with mine := fun fd => if fd ∈ fds then none else h.mine fd }

def reserved (h : Hold) : Hold := { h with pending := h.pending + 1 }

@[grind =]
theorem reserved_mine (h : Hold) (fd : Nat) : h.reserved.mine fd = h.mine fd := rfl

end Hold

/-- The process, while the thread of a run holds `h`. The readers from before have numbers below
`base`; the host's standard streams are `std`. -/
structure Holds (base : Nat) (std : Nat → Option (Descriptor File)) (h : Hold) (w : World) :
    Prop where
  table : ∀ fd d, h.mine fd = some d → w.table.entry fd = some d
  rest : ∀ fd, h.mine fd = none →
    w.table.entry fd = w.host.entry fd ∨ ∃ r ∈ w.readers, r.readFd = some fd
  own : ∀ fd d, h.mine fd = some d → fd ≠ 1 → fd ≠ 2 → w.host.entry fd = none
  ends : ∀ r ∈ w.readers, ∀ fd, r.readFd = some fd →
    h.mine fd = none ∧ w.host.entry fd = none ∧ fd ≠ 1 ∧ fd ≠ 2 ∧
      w.table.entry fd = some { file := .pipeRead r.pipe, cloexec := true }
  std : ∀ fd, fd = 1 ∨ fd = 2 → w.host.entry fd = std fd
  active : w.active = w.readers.length + h.pending
  stopped : ∀ r ∈ w.readers, r.pipe < base ∨ r.stop = true ∨ r.pipe ∈ h.running
  hosted : ∀ fd d, w.host.entry fd = some d → ∃ id, d.file = .host id

section

variable {base : Nat} {std : Nat → Option (Descriptor File)} {h : Hold} {w : World}

/-! ### The other threads -/

theorem Holds.other (hw : Holds base std h w) (o : Others) : Holds base std h (w.other o) := by
  cases o with
  | host fd opened =>
      simp only [World.other]
      split
      · next hmay =>
        simp only [World.hostMay, Bool.and_eq_true, decide_eq_true_eq] at hmay
        obtain ⟨⟨hout, herr⟩, hsame⟩ := hmay
        have hmine : h.mine fd = none := by
          cases hfd : h.mine fd with
          | none => rfl
          | some d =>
              have := hw.table fd d hfd
              rw [hsame, hw.own fd d hfd hout herr] at this
              cases this
        have hend : ∀ r ∈ w.readers, r.readFd ≠ some fd := by
          intro r hr hfd
          obtain ⟨-, hhost, -, -, htable⟩ := hw.ends r hr fd hfd
          rw [hsame, hhost] at htable
          cases htable
        constructor
        · grind [hw.table]
        · grind [hw.rest]
        · grind [hw.own]
        · grind [hw.ends]
        · grind [hw.std]
        · exact hw.active
        · exact hw.stopped
        · intro other d hd
          rw [Table.entry_put] at hd
          split at hd
          · obtain ⟨⟨id, cloexec⟩, -, rfl⟩ := Option.map_eq_some_iff.mp hd
            exact ⟨id, rfl⟩
          · exact hw.hosted other d hd
      · exact hw
  | readerCloses fd =>
      simp only [World.other]
      split
      · next hany =>
        simp only [List.any_eq_true, decide_eq_true_eq] at hany
        obtain ⟨r, hr, hfd⟩ := hany
        obtain ⟨hmine, hhost, hout, herr, -⟩ := hw.ends r hr fd hfd
        constructor
        · grind [hw.table, Table.close]
        · intro other hother
          by_cases hne : other = fd
          · left
            simp [Table.close, hne, hhost]
          · rcases hw.rest other hother with hsame | ⟨r', hr', hfd'⟩
            · left
              simpa [Table.close, Table.entry_put, hne] using hsame
            · right
              refine ⟨r', List.mem_map.mpr ⟨r', hr', ?_⟩, hfd'⟩
              rw [if_neg]
              rw [hfd']
              exact fun heq => hne (Option.some.inj heq)
        · exact hw.own
        · intro r' hr' other hother
          obtain ⟨r₀, hr₀, rfl⟩ := List.mem_map.mp hr'
          grind [hw.ends, Table.close]
        · exact hw.std
        · simpa using hw.active
        · intro r' hr'
          obtain ⟨r₀, hr₀, rfl⟩ := List.mem_map.mp hr'
          have hstopped := hw.stopped r₀ hr₀
          split <;> exact hstopped
        · exact hw.hosted
      · exact hw
  | readerReleases pipe =>
      simp only [World.other]
      split
      · next hany =>
        have hlength : (w.readers.eraseP fun r => r.pipe = pipe && r.readFd = none).length + 1 =
            w.readers.length := by
          have hlen := List.length_eraseP (l := w.readers)
            (p := fun r => r.pipe = pipe && r.readFd = none)
          rw [if_pos hany] at hlen
          have hpos : 0 < w.readers.length := by
            obtain ⟨r, hr, -⟩ := List.any_eq_true.mp hany
            exact List.length_pos_of_mem hr
          omega
        have hsub : ∀ r ∈ w.readers.eraseP (fun r => r.pipe = pipe && r.readFd = none),
            r ∈ w.readers := fun r hr => List.mem_of_mem_eraseP hr
        constructor
        · exact hw.table
        · intro fd hfd
          rcases hw.rest fd hfd with hsame | ⟨r, hr, hopen⟩
          · exact .inl hsame
          · -- a reader that is still reading is not the one that goes
            exact .inr ⟨r, (List.mem_eraseP_of_neg (by simp [hopen])).mpr hr, hopen⟩
        · exact hw.own
        · exact fun r hr => hw.ends r (hsub r hr)
        · exact hw.std
        · have := hw.active
          simp only
          omega
        · exact fun r hr => hw.stopped r (hsub r hr)
        · exact hw.hosted
      · exact hw

theorem Holds.others (hw : Holds base std h w) (os : List Others) :
    Holds base std h (os.foldl World.other w) := by
  induction os generalizing w with
  | nil => exact hw
  | cons o os ih => exact ih (hw.other o)

theorem other_script (w : World) (o : Others) : (w.other o).script = w.script := by
  cases o <;> simp only [World.other] <;> split <;> rfl

theorem others_script (w : World) (os : List Others) :
    (os.foldl World.other w).script = w.script := by
  induction os generalizing w with
  | nil => rfl
  | cons o os ih => exact (ih _).trans (other_script w o)

/-! ### What is held changes -/

theorem Holds.congr {h' : Hold} (hw : Holds base std h w) (mine : ∀ fd, h.mine fd = h'.mine fd)
    (pending : h.pending = h'.pending) (running : h.running = h'.running) :
    Holds base std h' w := by
  have heq : h = h' := by
    cases h
    cases h'
    simp only [Hold.mk.injEq] at *
    exact ⟨funext mine, pending, running⟩
  exact heq ▸ hw

theorem Holds.no_reader (hw : Holds base std h w) (fd : Nat)
    (hfd : h.mine fd ≠ none ∨ w.table.entry fd = none ∨ fd = 1 ∨ fd = 2) :
    ∀ r ∈ w.readers, r.readFd ≠ some fd := by
  intro r hr hopen
  obtain ⟨hmine, -, hout, herr, htable⟩ := hw.ends r hr fd hopen
  rcases hfd with hne | hclosed | hstd | hstd
  · exact hne hmine
  · rw [htable] at hclosed
    cases hclosed
  · exact hout hstd
  · exact herr hstd

/-- A descriptor that is closed is not the host's. -/
theorem Holds.host_closed (hw : Holds base std h w) {fd : Nat}
    (hclosed : w.table.entry fd = none) : h.mine fd = none ∧ w.host.entry fd = none := by
  have hmine : h.mine fd = none := by
    cases hfd : h.mine fd with
    | none => rfl
    | some d =>
        rw [hw.table fd d hfd] at hclosed
        cases hclosed
  refine ⟨hmine, ?_⟩
  rcases hw.rest fd hmine with hsame | ⟨r, hr, hopen⟩
  · rw [← hsame, hclosed]
  · exact absurd hopen (hw.no_reader _ (.inr (.inl hclosed)) r hr)

/-- A descriptor is opened at a closed number, or one that is held or redirected is replaced. -/
theorem Holds.put (hw : Holds base std h w) {fd : Nat} (d : Descriptor File)
    (hfd : h.mine fd ≠ none ∨ w.table.entry fd = none ∨ fd = 1 ∨ fd = 2) :
    Holds base std (h.put fd (some d)) { w with table := w.table.put fd (some d) } := by
  have hreader := hw.no_reader _ hfd
  have hhost : fd ≠ 1 → fd ≠ 2 → w.host.entry fd = none := by
    intro hout herr
    rcases hfd with hne | hclosed | hstd | hstd
    · obtain ⟨d', hd'⟩ := Option.ne_none_iff_exists'.mp hne
      exact hw.own fd d' hd' hout herr
    · exact (hw.host_closed hclosed).2
    · exact absurd hstd hout
    · exact absurd hstd herr
  constructor
  · grind [hw.table]
  · grind [hw.rest]
  · grind [hw.own]
  · grind [hw.ends]
  · exact hw.std
  · exact hw.active
  · exact hw.stopped
  · exact hw.hosted

/-- A descriptor that is as the host left it need not be held. -/
theorem Holds.forget (hw : Holds base std h w) (fd : Nat)
    (hfd : h.mine fd = w.host.entry fd) (hheld : h.mine fd ≠ none) :
    Holds base std (h.put fd none) w := by
  have hreader := hw.no_reader _ (.inl hheld)
  obtain ⟨d, hd⟩ := Option.ne_none_iff_exists'.mp hheld
  have htable := hw.table fd d hd
  constructor
  · grind [hw.table]
  · grind [hw.rest, hw.table]
  · grind [hw.own]
  · grind [hw.ends]
  · exact hw.std
  · exact hw.active
  · exact hw.stopped
  · exact hw.hosted

/-- A number at which the host has no standard stream. -/
def Internal (std : Nat → Option (Descriptor File)) (fd : Nat) : Prop :=
  fd = 1 ∨ fd = 2 → std fd = none

theorem Internal.of_le {fd : Nat} (hfd : 3 ≤ fd) : Internal std fd := by
  intro hstd
  omega

theorem Holds.close (hw : Holds base std h w) {fd : Nat} (hheld : h.mine fd ≠ none)
    (internal : Internal std fd) :
    Holds base std (h.put fd none) { w with table := w.table.close fd } := by
  have hreader := hw.no_reader _ (.inl hheld)
  have hhost : w.host.entry fd = none := by
    by_cases hstd : fd = 1 ∨ fd = 2
    · rw [hw.std fd hstd, internal hstd]
    · obtain ⟨d, hd⟩ := Option.ne_none_iff_exists'.mp hheld
      exact hw.own fd d hd (by omega) (by omega)
  constructor
  · grind [hw.table, Table.close]
  · grind [hw.rest, Table.close]
  · grind [hw.own]
  · grind [hw.ends, Table.close]
  · exact hw.std
  · exact hw.active
  · exact hw.stopped
  · exact hw.hosted

theorem Holds.internal (hw : Holds base std h w) {fd : Nat} (hclosed : w.table.entry fd = none) :
    Internal std fd := by
  intro hstd
  rw [← hw.std fd hstd]
  exact (hw.host_closed hclosed).2

/-- A standard stream that is not redirected is the host's. -/
theorem Holds.entry_std (hw : Holds base std h w) {fd : Nat} (hfd : fd = 1 ∨ fd = 2)
    (hmine : h.mine fd = none) : w.table.entry fd = std fd := by
  rcases hw.rest fd hmine with hsame | ⟨r, hr, hopen⟩
  · rw [hsame, hw.std fd hfd]
  · exact absurd hopen (hw.no_reader _ (.inr (.inr hfd)) r hr)

/-! ### The calls -/

/-- The two ways a call answers. -/
def answered {α : Type} (ok : α → World → Prop) (err : World → Prop) :
    Except IoError α → World → Prop
  | .ok value => ok value
  | .error _ => err

/-- The process is aborted only where restoring a stream failed for good. -/
def Aborts (a : Abort) : Prop := a.error.kind ≠ .interrupted

theorem turn_run (w : World) :
    turn w = match w.script with
      | [] => .ok (none, w)
      | t :: rest => .ok (t.fault, t.others.foldl World.other { w with script := rest }) := by
  change StateT.run turn w = _
  cases hscript : w.script <;> simp [turn, hscript] <;> rfl

theorem turn_spec : Ensures Aborts (Holds base std h) turn fun _ => Holds base std h := by
  intro w hw
  rw [turn_run]
  cases w.script with
  | nil => exact hw
  | cons t rest =>
      have hnext : Holds base std h { w with script := rest } := ⟨hw.table, hw.rest, hw.own,
        hw.ends, hw.std, hw.active, hw.stopped, hw.hosted⟩
      exact hnext.others t.others

/-- A call that fails has used up a turn. -/
theorem turn_script (n : Nat) : Ensures Aborts (fun w => w.script.length ≤ n) turn
    fun fault w => w.script.length ≤ n ∧ (fault ≠ none → w.script.length < n) := by
  intro w hw
  rw [turn_run]
  cases hscript : w.script with
  | nil => exact ⟨hw, fun hne => absurd rfl hne⟩
  | cons t rest =>
      rw [hscript, List.length_cons] at hw
      constructor <;> simp [others_script] <;> omega

theorem onTable_spec {α : Type} {call : Table File → Option (α × Table File)}
    {Q : Except IoError α → World → Prop}
    (fails : ∀ e w, Holds base std h w → Q (.error e) w)
    (goes : ∀ w value table, Holds base std h w → call w.table = some (value, table) →
      Q (.ok value) { w with table }) :
    Ensures Aborts (Holds base std h) (onTable call) Q := by
  refine turn_spec.bind fun fault => ?_
  cases fault with
  | some e => exact .pure fun w => fails e w
  | none =>
      refine (Ensures.get (Q := fun seen w => Holds base std h w ∧ seen = w)
        fun w hw => ⟨hw, rfl⟩).bind fun seen => ?_
      cases hcall : call seen.table with
      | none => exact .pure fun w hw => fails _ w hw.1
      | some out =>
          obtain ⟨value, table⟩ := out
          simp only
          refine Ensures.bind (Q := fun _ w => Q (.ok value) w)
            (.set fun w hw => ?_) fun _ => .pure fun w hw => hw
          obtain ⟨hw, rfl⟩ := hw
          exact goes seen value table hw hcall

/-- A table call that is interrupted has used up a turn. -/
theorem onTable_script {α : Type} (call : Table File → Option (α × Table File)) (n : Nat) :
    Ensures Aborts (fun w => w.script.length ≤ n) (onTable call) fun answer w =>
      w.script.length ≤ n ∧ ∀ e, answer = .error e → e.kind = .interrupted →
        w.script.length < n := by
  refine (turn_script n).bind fun fault => ?_
  cases fault with
  | some e => exact .pure fun w hw => ⟨hw.1, fun _ _ _ => hw.2 (by simp)⟩
  | none =>
      refine (Ensures.get (Q := fun seen w => w.script.length ≤ n ∧ seen = w)
        fun w hw => ⟨hw.1, rfl⟩).bind fun seen => ?_
      cases hcall : call seen.table with
      | none =>
          refine .pure fun w hw => ⟨hw.1, fun e he hkind => ?_⟩
          cases he
          cases hkind
      | some out =>
          obtain ⟨value, table⟩ := out
          simp only
          refine Ensures.bind (Q := fun _ w => w.script.length ≤ n)
            (.set fun w hw => ?_) fun _ => .pure fun w hw => ⟨hw, by simp⟩
          obtain ⟨hw, rfl⟩ := hw
          exact hw

/-- `F_DUPFD_CLOEXEC` of a descriptor that refers to `source`. -/
theorem dupfd_spec {fd : Nat} {source : Option (Descriptor File)}
    (hsource : ∀ w, Holds base std h w → w.table.entry fd = source) :
    Ensures Aborts (Holds base std h) (dupfd fd) (answered
      (fun n w => ∃ d, source = some d ∧ 3 ≤ n ∧ h.mine n = none ∧
        Holds base std (h.put n (some { d with cloexec := true })) w)
      (Holds base std h)) := by
  refine onTable_spec (fun _ _ hw => hw) fun w n table hw hcall => ?_
  simp only [Table.dupfdCloexec, hsource w hw, Option.map_eq_some_iff, Prod.mk.injEq] at hcall
  obtain ⟨d, hd, rfl, rfl⟩ := hcall
  have hclosed := w.table.lowestFree_closed 3
  exact ⟨d, hd, w.table.min_le_lowestFree 3, (hw.host_closed hclosed).1,
    hw.put _ (.inr (.inl hclosed))⟩

theorem getfd_spec {fd : Nat} {source : Option (Descriptor File)}
    (hsource : ∀ w, Holds base std h w → w.table.entry fd = source) :
    Ensures Aborts (Holds base std h) (getfd fd) (answered
      (fun flags w => (∃ d, source = some d ∧ flags = d.cloexec) ∧ Holds base std h w)
      (Holds base std h)) := by
  refine onTable_spec (fun _ _ hw => hw) fun w flags table hw hcall => ?_
  simp only [hsource w hw, Option.map_eq_some_iff, Prod.mk.injEq] at hcall
  obtain ⟨d, hd, rfl, rfl⟩ := hcall
  exact ⟨⟨d, hd, rfl⟩, hw⟩

theorem setfd_spec {fd : Nat} {d : Descriptor File} (hmine : h.mine fd = some d) (flags : Bool) :
    Ensures Aborts (Holds base std h) (setfd fd flags) (answered
      (fun _ => Holds base std (h.put fd (some { d with cloexec := flags })))
      (Holds base std h)) := by
  refine onTable_spec (fun _ _ hw => hw) fun w flags table hw hcall => ?_
  simp only [Table.setfd, hw.table fd d hmine, Option.map_some, Option.some.injEq,
    Prod.mk.injEq] at hcall
  obtain ⟨-, rfl⟩ := hcall
  exact hw.put _ (.inl (by simp [hmine]))

/-- `dup2` onto a standard stream. -/
theorem dup2_spec {old new : Nat} {d : Descriptor File} (hmine : h.mine old = some d)
    (hne : old ≠ new) (hnew : new = 1 ∨ new = 2) :
    Ensures Aborts (Holds base std h) (dup2 old new) (answered
      (fun _ => Holds base std (h.put new (some { d with cloexec := false })))
      (Holds base std h)) := by
  refine onTable_spec (fun _ _ hw => hw) fun w _ table hw hcall => ?_
  simp only [Table.dup2, hw.table old d hmine, Option.map_some, if_neg hne, Option.some.injEq,
    Prod.mk.injEq] at hcall
  obtain ⟨-, rfl⟩ := hcall
  exact hw.put _ (.inr (.inr hnew))

theorem close_spec (fd : Nat) (hheld : h.mine fd ≠ none) (internal : Internal std fd) :
    Ensures Aborts (Holds base std h) (close fd) fun _ => Holds base std (h.put fd none) :=
  turn_spec.bind fun _ => .modify fun _ hw => hw.close hheld internal

theorem pipe_spec : Ensures Aborts (Holds base std h) pipe (answered
    (fun (p, r, w) s => (r ≠ w ∧ h.mine r = none ∧ h.mine w = none ∧
        Internal std r ∧ Internal std w) ∧
      Holds base std ((h.put r (some { file := .pipeRead p, cloexec := false })).put w
        (some { file := .pipeWrite p, cloexec := false })) s)
    (Holds base std h)) := by
  refine turn_spec.bind fun fault => ?_
  cases fault with
  | some e => exact .pure fun w hw => hw
  | none =>
      refine (Ensures.get (Q := fun seen w => Holds base std h w ∧ seen = w)
        fun w hw => ⟨hw, rfl⟩).bind fun seen => ?_
      intro w hw
      obtain ⟨hw, rfl⟩ := hw
      have hread := seen.table.lowestFree_closed 0
      have hfirst := hw.put { file := .pipeRead seen.next, cloexec := false } (.inr (.inl hread))
      have hwrite := (seen.table.put (seen.table.lowestFree 0)
        (some { file := .pipeRead seen.next, cloexec := false })).lowestFree_closed 0
      have hboth := hfirst.put { file := .pipeWrite seen.next, cloexec := false }
        (.inr (.inl hwrite))
      have hne := hwrite
      rw [Table.entry_put] at hne
      split at hne
      · cases hne
      · next hdistinct =>
        have hmine := (hfirst.host_closed hwrite).1
        rw [Hold.put_mine, if_neg hdistinct] at hmine
        exact ⟨⟨Ne.symm hdistinct, (hw.host_closed hread).1, hmine, hw.internal hread,
          hfirst.internal hwrite⟩, hboth.table, hboth.rest, hboth.own, hboth.ends, hboth.std,
          hboth.active, hboth.stopped, hboth.hosted⟩

theorem flush_spec : Ensures Aborts (Holds base std h) flush fun _ => Holds base std h := by
  refine turn_spec.bind fun fault => ?_
  cases fault <;> exact .pure fun w hw => hw

/-! ### The budget -/

theorem reserve_spec : Ensures Aborts (Holds base std h) reserveCaptureReader
    (answered (fun _ => Holds base std h.reserved) (Holds base std h)) := by
  refine (Ensures.get (Q := fun seen w => Holds base std h w ∧ seen = w)
    fun w hw => ⟨hw, rfl⟩).bind fun seen => ?_
  refine .ite (fun _ => .pure fun w hw => hw.1) fun _ => ?_
  refine Ensures.bind (Q := fun _ => Holds base std h.reserved) (.set fun w hw => ?_)
    fun _ => .pure fun w hw => hw
  obtain ⟨hw, rfl⟩ := hw
  have hactive := hw.active
  exact ⟨hw.table, hw.rest, hw.own, hw.ends, hw.std, by simp [Hold.reserved]; omega,
    hw.stopped, hw.hosted⟩

theorem release_spec : Ensures Aborts (Holds base std h.reserved) releaseBudget
    fun _ => Holds base std h := by
  refine .modify fun w hw => ?_
  have hactive := hw.active
  exact ⟨hw.table, hw.rest, hw.own, hw.ends, hw.std, by simp [Hold.reserved] at hactive ⊢; omega,
    hw.stopped, hw.hosted⟩

/-! ### Restoring a stream -/

section Uninterrupted

variable {α : Type} {call : Table File → Option (Unit × Table File)} {h' : Hold}

theorem untilDone_spec (hcall : Ensures Aborts (Holds base std h) (onTable call)
      (answered (fun _ => Holds base std h') (Holds base std h))) (fuel : Nat) :
    Ensures Aborts (fun w => Holds base std h w ∧ w.script.length ≤ fuel)
      (untilDone (onTable call) fuel) fun answer w => match answer with
        | .ok () => Holds base std h' w
        | .error e => e.kind ≠ .interrupted := by
  induction fuel with
  | zero =>
      refine (hcall.and (onTable_script call 0)).weaken fun answer w hw => ?_
      cases answer with
      | ok _ => exact hw.1
      | error e => exact fun hkind => absurd (hw.2.2 e rfl hkind) (Nat.not_lt_zero _)
  | succ fuel ih =>
      refine (hcall.and (onTable_script call (fuel + 1))).bind fun answer => ?_
      cases answer with
      | ok _ => exact .pure fun w hw => hw.1
      | error e =>
          refine .ite (fun hkind => ?_) fun hkind => .pure fun w hw => hkind
          exact ih.conseq (fun w hw => ⟨hw.1, Nat.le_of_lt_succ (hw.2.2 e rfl hkind)⟩)
            fun _ _ hw => hw

/-- The loop ends, with the call made or refused for good. -/
theorem uninterrupted_spec (hcall : Ensures Aborts (Holds base std h) (onTable call)
      (answered (fun _ => Holds base std h') (Holds base std h))) :
    Ensures Aborts (Holds base std h) (uninterrupted (onTable call)) fun answer w =>
      match answer with
        | .ok () => Holds base std h' w
        | .error e => e.kind ≠ .interrupted := by
  refine (Ensures.get (Q := fun seen w => Holds base std h w ∧ seen = w)
    fun w hw => ⟨hw, rfl⟩).bind fun seen => ?_
  refine (untilDone_spec hcall seen.script.length).conseq (fun w hw => ?_) fun _ _ hw => hw
  obtain ⟨hw, rfl⟩ := hw
  exact ⟨hw, Nat.le_refl _⟩

end Uninterrupted

/-- `restore_target` gives the host its standard stream back, flag and all. -/
theorem restoreOrAbort_spec {target saved : Nat} {d : Descriptor File}
    (htarget : target = 1 ∨ target = 2) (hstd : std target = some d)
    (hsaved : h.mine saved = some { d with cloexec := true }) (hne : saved ≠ target) :
    Ensures Aborts (Holds base std h) (restoreOrAbort target saved d.cloexec)
      fun _ => Holds base std (h.put target none) := by
  have hset : (h.put target (some { d with cloexec := false })).mine target =
      some { d with cloexec := false } := by grind
  refine Ensures.bind (Q := fun answer w => match answer with
    | .ok () => Holds base std (h.put target none) w
    | .error e => e.kind ≠ .interrupted)
    (Ensures.attempt (uninterrupted_spec (dup2_spec hsaved hne htarget)) (fun e => ?_)
      fun _ => ?_) fun answer => ?_
  · exact .pure fun w hw => hw
  · refine (uninterrupted_spec (setfd_spec hset d.cloexec)).weaken fun answer w hw => ?_
    cases answer with
    | ok _ =>
        refine (hw.forget target ?_ (by grind)).congr (by grind) rfl rfl
        rw [hw.std target htarget, hstd, Hold.put_mine, if_pos rfl]
    | error e => exact hw
  · cases answer with
    | ok _ => exact .pure fun w hw => hw
    | error e =>
        intro w hw
        exact hw

/-! ### The pipe of a stream -/

theorem setCloexec_spec {fd : Nat} {d : Descriptor File} (hmine : h.mine fd = some d) :
    Ensures Aborts (Holds base std h) (setCloexec fd) (answered
      (fun _ => Holds base std (h.put fd (some { d with cloexec := true })))
      (Holds base std h)) :=
  .attempt (getfd_spec fun _ hw => hw.table fd d hmine) (fun _ => .pure fun _ hw => hw)
    fun _ => (setfd_spec hmine true).conseq (fun _ hw => hw.2) fun _ _ hw => hw

/-- An end of the pipe keeps its place or is moved above the standard streams. -/
theorem relocate_spec {fd : Nat} {d : Descriptor File} (hmine : h.mine fd = some d)
    (internal : Internal std fd) :
    Ensures Aborts (Holds base std h) (relocate fd) (answered
      (fun n w => (3 ≤ n ∧ (n = fd ∨ h.mine n = none)) ∧ ∃ cloexec,
        Holds base std ((h.put fd none).put n (some { d with cloexec })) w)
      (Holds base std h)) := by
  obtain ⟨file, flag⟩ := d
  refine .ite (fun hlt => ?_) fun hge => .pure fun w hw => ?_
  · refine .attempt (dupfd_spec fun _ hw => hw.table fd _ hmine)
      (fun _ => .pure fun _ hw => hw) fun n => ?_
    refine .exists_pre fun d' => .pure_pre fun hd' => .pure_pre fun hn => .pure_pre fun hfree => ?_
    cases hd'
    have hne : n ≠ fd := by omega
    refine (close_spec fd (by grind) internal).bind fun _ => .pure fun w hw => ?_
    exact ⟨⟨hn, .inr hfree⟩, true, hw.congr (by grind) rfl rfl⟩
  · exact ⟨⟨by omega, .inl rfl⟩, flag, hw.congr (by grind) rfl rfl⟩

theorem closeAll_spec (fds : List Nat) (distinct : fds.Nodup)
    (held : ∀ fd ∈ fds, h.mine fd ≠ none ∧ Internal std fd) :
    Ensures Aborts (Holds base std h) (closeAll fds) fun _ => Holds base std (h.without fds) := by
  induction fds generalizing h with
  | nil => exact .pure fun w hw => hw.congr (by simp [Hold.without]) rfl rfl
  | cons fd rest ih =>
      obtain ⟨hnot, hrest⟩ := List.nodup_cons.mp distinct
      obtain ⟨hfd, internal⟩ := held fd List.mem_cons_self
      refine (close_spec _ hfd internal).bind fun _ => (ih hrest fun other hother => ?_).weaken
        fun _ w hw => hw.congr (by grind [Hold.without]) rfl rfl
      have := held other (List.mem_cons_of_mem _ hother)
      grind

/-- The hold of a stream being set up: the slot it has reserved, and the two ends of its pipe. -/
def Hold.opened (h : Hold) (pipe readFd writeFd : Nat) (readFlag writeFlag : Bool) : Hold :=
  (h.reserved.put readFd (some { file := .pipeRead pipe, cloexec := readFlag })).put writeFd
    (some { file := .pipeWrite pipe, cloexec := writeFlag })

@[grind =]
theorem Hold.opened_mine (h : Hold) (pipe readFd writeFd fd : Nat) (readFlag writeFlag : Bool) :
    (h.opened pipe readFd writeFd readFlag writeFlag).mine fd =
      if fd = writeFd then some { file := .pipeWrite pipe, cloexec := writeFlag }
      else if fd = readFd then some { file := .pipeRead pipe, cloexec := readFlag }
      else h.mine fd := rfl

/-- The two ends of a pipe, beside what was held. -/
structure Opened (std : Nat → Option (Descriptor File)) (h : Hold) (readFd writeFd : Nat) :
    Prop where
  distinct : readFd ≠ writeFd
  readFree : h.mine readFd = none
  writeFree : h.mine writeFd = none
  readInternal : Internal std readFd
  writeInternal : Internal std writeFd

/-- The early returns of `StreamCapture::new` close the pipe and the saved descriptor, in some
order, and give the slot back. -/
theorem Opened.discard {dupFd readFd writeFd : Nat} (ends : Opened std h readFd writeFd)
    (pipe : Nat) (readFlag writeFlag : Bool) (hdup : h.mine dupFd ≠ none) (hlarge : 3 ≤ dupFd)
    {fds : List Nat} (hfds : fds.Perm [readFd, writeFd, dupFd]) :
    Ensures Aborts (Holds base std (h.opened pipe readFd writeFd readFlag writeFlag))
      (do closeAll fds; releaseBudget) fun _ => Holds base std (h.put dupFd none) := by
  obtain ⟨hdistinct, hread, hwrite, hreadInternal, hwriteInternal⟩ := ends
  have hmem : ∀ fd, fd ∈ fds ↔ fd = readFd ∨ fd = writeFd ∨ fd = dupFd := fun fd => by
    rw [hfds.mem_iff]
    simp
  have hnodup : fds.Nodup := by
    rw [hfds.nodup_iff]
    grind
  refine (closeAll_spec _ hnodup fun fd hfd => ?_).bind fun _ =>
    (release_spec (h := h.put dupFd none)).conseq
      (fun w hw => hw.congr (fun fd => ?_) rfl rfl) fun _ _ hw => hw
  · rcases (hmem fd).mp hfd with rfl | rfl | rfl
    · exact ⟨by grind, hreadInternal⟩
    · exact ⟨by grind, hwriteInternal⟩
    · exact ⟨by grind, .of_le hlarge⟩
  · simp only [Hold.without, hmem]
    grind

/-- Both ends are marked close-on-exec; where that fails, either flag may have been set. -/
theorem Opened.mark {readFd writeFd : Nat} (ends : Opened std h readFd writeFd)
    (pipe : Nat) (readFlag writeFlag : Bool) :
    Ensures Aborts (Holds base std (h.opened pipe readFd writeFd readFlag writeFlag))
      (attempt (setCloexec readFd) (return ()) fun () => setCloexec writeFd)
      (answered (fun _ => Holds base std (h.opened pipe readFd writeFd true true))
        (fun w => ∃ flag, Holds base std (h.opened pipe readFd writeFd flag writeFlag) w)) := by
  have hdistinct := ends.distinct
  refine .attempt (setCloexec_spec (d := { file := .pipeRead pipe, cloexec := readFlag })
    (by grind)) (fun _ => .pure fun w hw => ⟨readFlag, hw⟩) fun _ => ?_
  refine (setCloexec_spec (d := { file := .pipeWrite pipe, cloexec := writeFlag })
    (by grind)).weaken fun answer w hw => ?_
  cases answer with
  | ok _ => exact hw.congr (by grind) rfl rfl
  | error _ => exact ⟨true, hw.congr (by grind) rfl rfl⟩

/-- The reader thread takes over its end of the pipe and the slot of the budget. -/
theorem Holds.spawn (hw : Holds base std h.reserved w) {pipe readFd : Nat}
    (hread : h.mine readFd = some { file := .pipeRead pipe, cloexec := true })
    (hlarge : 3 ≤ readFd) :
    Holds base std { h.put readFd none with running := pipe :: h.running }
      { w with readers := { pipe, readFd := some readFd, stop := false } :: w.readers } := by
  have htable := hw.table readFd _ hread
  have hhost := hw.own readFd _ hread (by omega) (by omega)
  have hreader := hw.no_reader readFd (.inl (by simp [Hold.reserved, hread]))
  have hactive := hw.active
  constructor
  · grind [hw.table]
  · intro fd hfd
    by_cases hne : fd = readFd
    · exact .inr ⟨_, List.mem_cons_self, by rw [hne]⟩
    · rcases hw.rest fd (by grind) with hsame | ⟨r, hr, hopen⟩
      · exact .inl hsame
      · exact .inr ⟨r, List.mem_cons_of_mem _ hr, hopen⟩
  · grind [hw.own]
  · intro r hr fd hopen
    rcases List.mem_cons.mp hr with rfl | hr
    · cases hopen
      exact ⟨by grind, hhost, by omega, by omega, htable⟩
    · have := hw.ends r hr fd hopen
      grind
  · exact hw.std
  · simp only [Hold.reserved, Hold.put, List.length_cons] at hactive ⊢
    omega
  · intro r hr
    rcases List.mem_cons.mp hr with rfl | hr
    · exact .inr (.inr List.mem_cons_self)
    · rcases hw.stopped r hr with hold | hstop | hrunning
      · exact .inl hold
      · exact .inr (.inl hstop)
      · exact .inr (.inr (List.mem_cons_of_mem _ hrunning))
  · exact hw.hosted

theorem spawnReader_spec (pipe readFd : Nat)
    (hread : h.mine readFd = some { file := .pipeRead pipe, cloexec := true })
    (hlarge : 3 ≤ readFd) :
    Ensures Aborts (Holds base std h.reserved) (spawnReader pipe readFd) (answered
      (fun _ => Holds base std { h.put readFd none with running := pipe :: h.running })
      (Holds base std h.reserved)) := by
  refine turn_spec.bind fun fault => ?_
  cases fault with
  | some e => exact .pure fun w hw => hw
  | none =>
      exact Ensures.bind (Q := fun _ =>
        Holds base std { h.put readFd none with running := pipe :: h.running })
        (.modify fun w hw => hw.spawn hread hlarge) fun _ => .pure fun w hw => hw

/-! ### One stream -/

/-- The hold of a stream that is redirected into a pipe. -/
def Hold.redirected (h : Hold) (target pipe : Nat) : Hold :=
  { h.put target (some { file := .pipeWrite pipe, cloexec := true }) with
    running := pipe :: h.running }

/-- What a thread may redirect: a standard stream of the host, of which it holds a copy. -/
structure Saved (std : Nat → Option (Descriptor File)) (h : Hold) (target saved : Nat)
    (d : Descriptor File) : Prop where
  standard : target = 1 ∨ target = 2
  stream : std target = some d
  copy : h.mine saved = some { d with cloexec := true }
  large : 3 ≤ saved

/-- A capture that is in place. -/
structure Captures (stream : StreamCapture) (target saved : Nat) (d : Descriptor File) : Prop where
  target : stream.target = target
  saved : stream.saved = some saved
  flags : stream.targetFlags = d.cloexec

/-- The last part of `StreamCapture::new`: the stream is redirected, or all is as before. -/
theorem StreamCapture.start_spec {target dupFd pipe readFd writeFd : Nat} {d : Descriptor File}
    (hsaved : Saved std h target dupFd d) (hmine : h.mine target = none)
    (ends : Opened std h readFd writeFd) (hread : 3 ≤ readFd) (hwrite : 3 ≤ writeFd) :
    Ensures Aborts (Holds base std ((h.opened pipe readFd writeFd true true).put target
        (some { file := .pipeWrite pipe, cloexec := false })))
      (start target dupFd pipe readFd writeFd d.cloexec) (answered
        (fun stream w => (Captures stream target dupFd d ∧ stream.reader = pipe) ∧
          Holds base std (h.redirected target pipe) w)
        (Holds base std (h.put dupFd none))) := by
  obtain ⟨hstandard, hstream, hcopy, hlarge⟩ := hsaved
  have hends := ends
  obtain ⟨hdistinct, hreadFree, hwriteFree, -, hwriteInternal⟩ := ends
  have hdup : dupFd ≠ readFd ∧ dupFd ≠ writeFd ∧ dupFd ≠ target := by grind
  refine .attempt (setCloexec_spec (d := { file := .pipeWrite pipe, cloexec := false })
    (by grind)) (fun _ => ?_) fun _ => ?_
  · have hpipe : [dupFd, readFd, writeFd].Perm [readFd, writeFd, dupFd] :=
      (@List.perm_append_comm _ [dupFd] _)
    refine (restoreOrAbort_spec hstandard hstream (by grind) hdup.2.2).bind fun _ => ?_
    exact (hends.discard pipe true true (by grind) hlarge hpipe).conseq
      (fun w hw => hw.congr (by grind) rfl rfl) fun _ _ hw => hw
  · -- the write end is closed: its copy at the target is the only one left
    let g := (h.put readFd (some { file := .pipeRead pipe, cloexec := true })).put target
      (some { file := .pipeWrite pipe, cloexec := true })
    have hg : ∀ fd, g.mine fd = if fd = target then
        some { file := .pipeWrite pipe, cloexec := true }
      else if fd = readFd then some { file := .pipeRead pipe, cloexec := true }
      else h.mine fd := fun fd => rfl
    refine (close_spec writeFd (by grind) hwriteInternal).bind fun _ =>
      (Ensures.attempt ((spawnReader_spec (h := g) pipe readFd
        (by grind) hread).conseq (fun w hw => hw.congr (by grind) rfl rfl) fun _ _ hw => hw)
        (fun _ => ?_) fun _ => ?_)
    · refine release_spec.bind fun _ => ?_
      refine (restoreOrAbort_spec hstandard hstream (by grind) hdup.2.2).bind fun _ => ?_
      refine (closeAll_spec [dupFd, readFd] (by simp; exact hdup.1)
        fun fd hfd => ?_).weaken fun _ w hw => hw.congr (fun fd => ?_) rfl rfl
      · simp only [List.mem_cons, List.not_mem_nil, or_false] at hfd
        rcases hfd with rfl | rfl
        · exact ⟨by grind, .of_le hlarge⟩
        · exact ⟨by grind, .of_le hread⟩
      · simp only [Hold.without, List.mem_cons, List.not_mem_nil, or_false]
        grind
    · refine .pure fun w hw => ⟨⟨⟨rfl, rfl, rfl⟩, rfl⟩, hw.congr (fun fd => ?_) rfl rfl⟩
      simp only [Hold.redirected]
      grind

/-- The drop of the saved descriptor, on the early returns that have opened nothing yet. -/
theorem Saved.discard {target dupFd : Nat} {d : Descriptor File}
    (hsaved : Saved std h target dupFd d) :
    Ensures Aborts (Holds base std h) (close dupFd) fun _ => Holds base std (h.put dupFd none) :=
  close_spec _ (by simp [hsaved.copy]) (.of_le hsaved.large)

/-- `StreamCapture::new` redirects its stream, or closes all it has opened and the saved
descriptor with it. -/
theorem StreamCapture.new_spec {target dupFd : Nat} {d : Descriptor File}
    (hsaved : Saved std h target dupFd d) (hmine : h.mine target = none) :
    Ensures Aborts (Holds base std h) (new target dupFd) (answered
      (fun stream w => Captures stream target dupFd d ∧
        Holds base std (h.redirected target stream.reader) w)
      (Holds base std (h.put dupFd none))) := by
  have hdup : h.mine dupFd ≠ none := by simp [hsaved.copy]
  refine .attempt (getfd_spec fun w hw => hw.entry_std hsaved.standard hmine)
    (fun _ => hsaved.discard) fun flags => .pure_pre fun hflags => ?_
  obtain ⟨d', hd', rfl⟩ := hflags
  cases hsaved.stream.symm.trans hd'
  refine .attempt reserve_spec (fun _ => hsaved.discard) fun _ => ?_
  refine .attempt pipe_spec (fun _ => ?_) fun ⟨pipe, fds0, fds1⟩ => .pure_pre fun hpipe => ?_
  · exact (close_spec (h := h.reserved) _ hdup (.of_le hsaved.large)).bind fun _ =>
      (release_spec (h := h.put dupFd none)).conseq
        (fun w hw => hw.congr (fun _ => rfl) rfl rfl) fun _ _ hw => hw
  obtain ⟨hne, hfree0, hfree1, hinternal0, hinternal1⟩ := hpipe
  have ends : Opened std h fds0 fds1 := ⟨hne, hfree0, hfree1, hinternal0, hinternal1⟩
  refine .attempt (Ensures.conseq (relocate_spec (h := h.opened pipe fds0 fds1 false false)
    (d := { file := .pipeRead pipe, cloexec := false }) (by grind) hinternal0)
    (fun w hw => hw) fun _ _ hw => hw)
    (fun _ => ends.discard pipe false false hdup hsaved.large (.refl _))
    fun readFd => .pure_pre fun hread => .exists_pre fun readFlag => ?_
  have ends : Opened std h readFd fds1 :=
    ⟨by grind, by grind, hfree1, .of_le hread.1, hinternal1⟩
  refine .attempt (Ensures.conseq (relocate_spec (h := h.opened pipe readFd fds1 readFlag false)
    (d := { file := .pipeWrite pipe, cloexec := false }) (by grind) hinternal1)
    (fun w hw => hw.congr (by grind) rfl rfl) fun _ _ hw => hw)
    (fun _ => ends.discard pipe readFlag false hdup hsaved.large (.refl _))
    fun writeFd => .pure_pre fun hwrite => .exists_pre fun writeFlag => ?_
  have ends : Opened std h readFd writeFd :=
    ⟨by grind, ends.readFree, by grind, .of_le hread.1, .of_le hwrite.1⟩
  refine .attempt ((ends.mark pipe readFlag writeFlag).conseq
    (fun w hw => hw.congr (by grind) rfl rfl) fun _ _ hw => hw)
    (fun _ => .exists_pre fun flag =>
      ends.discard pipe flag writeFlag hdup hsaved.large (.refl _)) fun _ => ?_
  refine .attempt (dup2_spec (d := { file := .pipeWrite pipe, cloexec := true }) (by grind)
    (by grind [hsaved.standard]) hsaved.standard) (fun _ => ?_) fun _ => ?_
  · exact ends.discard pipe true true hdup hsaved.large (@List.perm_append_comm _ [dupFd] _)
  · refine (start_spec hsaved hmine ends hread.1 hwrite.1).weaken fun answer w hw => ?_
    cases answer with
    | error _ => exact hw
    | ok stream =>
        obtain ⟨⟨hcaptures, hreader⟩, hw⟩ := hw
        exact ⟨hcaptures, hreader ▸ hw⟩

theorem StreamCapture.restore_spec {stream : StreamCapture} {target saved : Nat}
    {d : Descriptor File} (hcaptures : Captures stream target saved d)
    (hsaved : Saved std h target saved d) :
    Ensures Aborts (Holds base std h) stream.restore fun restored w =>
      (restored.saved = none ∧ restored.reader = stream.reader) ∧
        Holds base std ((h.put target none).put saved none) w := by
  obtain ⟨rfl, hcopy, hflags⟩ := hcaptures
  obtain ⟨hstandard, hstream, hmine, hlarge⟩ := hsaved
  rw [restore, hcopy, hflags]
  refine flush_spec.bind fun flushed => ?_
  refine (restoreOrAbort_spec hstandard hstream hmine (by omega)).bind fun _ => ?_
  refine (close_spec saved (by grind) (.of_le hlarge)).bind fun _ => .pure fun w hw => ?_
  exact ⟨⟨rfl, rfl⟩, hw⟩

/-- The reader of a stream that is not `running` any more has been told to stop. -/
def Hold.stopped (h : Hold) (pipe : Nat) : Hold :=
  { h with running := h.running.filter (· ≠ pipe) }

theorem Holds.stop (hw : Holds base std h w) (pipe : Nat) : Holds base std (h.stopped pipe)
    { w with
      readers := w.readers.map fun r => if r.pipe = pipe then { r with stop := true } else r } := by
  constructor
  · exact hw.table
  · intro fd hfd
    rcases hw.rest fd hfd with hsame | ⟨r, hr, hopen⟩
    · exact .inl hsame
    · refine .inr ⟨_, List.mem_map_of_mem hr, ?_⟩
      split <;> exact hopen
  · exact hw.own
  · intro r hr fd hopen
    obtain ⟨r₀, hr₀, rfl⟩ := List.mem_map.mp hr
    have := hw.ends r₀ hr₀ fd
    split at hopen <;> split <;> exact this hopen
  · exact hw.std
  · simpa [Hold.stopped] using hw.active
  · intro r hr
    obtain ⟨r₀, hr₀, rfl⟩ := List.mem_map.mp hr
    have hr₀ := hw.stopped r₀ hr₀
    split
    · exact .inr (.inl rfl)
    · next hne =>
      rcases hr₀ with hold | hstop | hrunning
      · exact .inl hold
      · exact .inr (.inl hstop)
      · exact .inr (.inr (List.mem_filter.mpr ⟨hrunning, by simpa using hne⟩))
  · exact hw.hosted

/-- The drop of a stream in place. -/
theorem StreamCapture.drop_spec {stream : StreamCapture} {target saved : Nat}
    {d : Descriptor File} (hcaptures : Captures stream target saved d)
    (hsaved : Saved std h target saved d) :
    Ensures Aborts (Holds base std h) stream.drop fun _ =>
      Holds base std (((h.put target none).put saved none).stopped stream.reader) :=
  (restore_spec hcaptures hsaved).bind fun _ => .modify fun _ hw => hw.2.stop stream.reader

/-- The drop of a stream that was restored. -/
theorem StreamCapture.drop_restored {stream : StreamCapture} (hsaved : stream.saved = none) :
    Ensures Aborts (Holds base std h) stream.drop fun _ =>
      Holds base std (h.stopped stream.reader) := by
  refine Ensures.bind (Q := fun _ => Holds base std h) ?_ fun _ =>
    .modify fun _ hw => hw.stop stream.reader
  rw [restore, hsaved]
  exact .pure fun w hw => hw

/-! ### Both streams -/

/-- A stream that is in place, with its pipe at the standard stream. -/
structure InPlace (std : Nat → Option (Descriptor File)) (h : Hold) (target : Nat)
    (stream : StreamCapture) : Prop where
  captures : ∃ saved d, Captures stream target saved d ∧ Saved std h target saved d
  redirects : h.mine target = some { file := .pipeWrite stream.reader, cloexec := true }

/-- The captured streams are in place, and nothing else is held. -/
structure Placed (std : Nat → Option (Descriptor File)) (h : Hold) (capture : OutputCapture) :
    Prop where
  stdout : ∀ stream, capture.stdout = some stream → InPlace std h 1 stream
  stderr : ∀ stream, capture.stderr = some stream → InPlace std h 2 stream
  distinct : ∀ out err, capture.stdout = some out → capture.stderr = some err →
    out.saved ≠ err.saved
  only : ∀ fd, h.mine fd = none ∨
    (∃ stream, capture.stdout = some stream ∧ (fd = 1 ∨ stream.saved = some fd)) ∨
    ∃ stream, capture.stderr = some stream ∧ (fd = 2 ∨ stream.saved = some fd)
  pending : h.pending = 0

/-- The readers that run are those of the captured streams. -/
def Runs (h : Hold) (capture : OutputCapture) : Prop :=
  ∀ pipe ∈ h.running, (∃ stream, capture.stdout = some stream ∧ stream.reader = pipe) ∨
    ∃ stream, capture.stderr = some stream ∧ stream.reader = pipe

/-- The saved copy of a stream, if it is captured, beside what was held. -/
def SavedIn (std : Nat → Option (Descriptor File)) (h : Hold) (target : Nat) (saved : Option Nat)
    (h' : Hold) : Prop :=
  match saved with
  | none => h' = h
  | some n => ∃ d, h.mine n = none ∧ Saved std h' target n d ∧
      h' = h.put n (some { d with cloexec := true })

theorem saved_spec (captured : Bool) {target : Nat} (htarget : target = 1 ∨ target = 2)
    (hmine : h.mine target = none) :
    Ensures Aborts (Holds base std h) (whenCaptured captured (dupfd target)) (answered
      (fun saved w => ∃ h', SavedIn std h target saved h' ∧ Holds base std h' w)
      (Holds base std h)) := by
  refine .ite (fun _ => .attempt (dupfd_spec fun w hw => hw.entry_std htarget hmine)
    (fun _ => .pure fun w hw => hw) fun n => ?_) fun _ => .pure fun w hw => ⟨h, rfl, hw⟩
  refine .exists_pre fun d => .pure_pre fun hd => .pure_pre fun hn => .pure_pre fun hfree => ?_
  exact .pure fun w hw => ⟨_, ⟨d, hfree, ⟨htarget, hd, by grind, hn⟩, rfl⟩, hw⟩

/-- A saved descriptor is given up. -/
def Hold.dropped (h : Hold) : Option Nat → Hold
  | none => h
  | some n => h.put n none

theorem dropSaved_spec {saved : Option Nat}
    (hsaved : ∀ n, saved = some n → h.mine n ≠ none ∧ 3 ≤ n) :
    Ensures Aborts (Holds base std h) (dropSaved saved) fun _ =>
      Holds base std (h.dropped saved) := by
  cases saved with
  | none => exact .pure fun w hw => hw
  | some n => exact close_spec n (hsaved n rfl).1 (.of_le (hsaved n rfl).2)

/-- A stream, if it is captured, is redirected. -/
def StreamIn (h : Hold) (std : Nat → Option (Descriptor File)) (target : Nat)
    (saved : Option Nat) (stream : Option StreamCapture) (h' : Hold) : Prop :=
  match saved, stream with
  | none, none => h' = h
  | some n, some s => ∃ d, Captures s target n d ∧ Saved std h target n d ∧
      h' = h.redirected target s.reader
  | _, _ => False

theorem newStream_spec {target : Nat} {saved : Option Nat}
    (hsaved : ∀ n, saved = some n → ∃ d, Saved std h target n d) (hmine : h.mine target = none) :
    Ensures Aborts (Holds base std h) (newStream target saved) (answered
      (fun stream w => ∃ h', StreamIn h std target saved stream h' ∧ Holds base std h' w)
      (Holds base std (h.dropped saved))) := by
  cases saved with
  | none => exact .pure fun w hw => ⟨h, rfl, hw⟩
  | some n =>
      obtain ⟨d, hd⟩ := hsaved n rfl
      exact .attempt (StreamCapture.new_spec hd hmine) (fun _ => .pure fun w hw => hw)
        fun stream => .pure fun w hw => ⟨_, ⟨d, hw.1, hd, rfl⟩, hw.2⟩

/-- A copy stays what it is while other descriptors change hands. -/
theorem Saved.mono {h' : Hold} {target saved : Nat} {d : Descriptor File}
    (hsaved : Saved std h target saved d) (hsame : h'.mine saved = h.mine saved) :
    Saved std h' target saved d :=
  ⟨hsaved.standard, hsaved.stream, hsame.trans hsaved.copy, hsaved.large⟩

@[grind =]
theorem Hold.redirected_mine (h : Hold) (target pipe fd : Nat) :
    (h.redirected target pipe).mine fd =
      if fd = target then some { file := .pipeWrite pipe, cloexec := true } else h.mine fd := rfl

@[grind =]
theorem Hold.empty_mine (fd : Nat) : Hold.empty.mine fd = none := rfl

theorem flushed_spec (captured : Bool) :
    Ensures Aborts (Holds base std h) (whenCaptured captured flush) fun _ => Holds base std h :=
  .ite (fun _ => .attempt flush_spec (fun _ => .pure fun _ hw => hw) fun _ => .pure fun _ hw => hw)
    fun _ => .pure fun _ hw => hw

/-- The saved copies of the captured streams, and nothing else. -/
structure Copies (std : Nat → Option (Descriptor File)) (h : Hold) (out err : Option Nat) :
    Prop where
  stdout : ∀ n, out = some n → ∃ d, Saved std h 1 n d
  stderr : ∀ n, err = some n → ∃ d, Saved std h 2 n d
  distinct : ∀ n m, out = some n → err = some m → n ≠ m
  only : ∀ fd, h.mine fd = none ∨ out = some fd ∨ err = some fd
  pending : h.pending = 0
  running : h.running = []

theorem SavedIn.stdout {out : Option Nat} (hout : SavedIn std .empty 1 out h) :
    Copies std h out none := by
  cases out with
  | none =>
      cases hout
      constructor <;> simp [Hold.empty]
  | some n =>
      obtain ⟨d, -, hsaved, rfl⟩ := hout
      exact ⟨fun m hm => by cases hm; exact ⟨d, hsaved⟩, nofun, nofun, by grind, rfl, rfl⟩

theorem SavedIn.stderr {h' : Hold} {out err : Option Nat} (hout : Copies std h out none)
    (herr : SavedIn std h 2 err h') : Copies std h' out err := by
  cases err with
  | none =>
      cases herr
      exact hout
  | some m =>
      obtain ⟨e, hfree, hsaved, rfl⟩ := herr
      have hne : ∀ n, out = some n → n ≠ m := by
        rintro n hn rfl
        obtain ⟨d, hd⟩ := hout.stdout n hn
        rw [hd.copy] at hfree
        cases hfree
      refine ⟨fun n hn => ?_, fun n hn => by cases hn; exact ⟨e, hsaved⟩,
        fun n m' hn hm => by cases hm; exact hne n hn, fun fd => ?_, hout.pending, hout.running⟩
      · obtain ⟨d, hd⟩ := hout.stdout n hn
        exact ⟨d, hd.mono (by grind)⟩
      · have := hout.only fd
        grind

/-- A standard stream is not among the copies. -/
theorem Copies.standard {out err : Option Nat} (hcopies : Copies std h out err) {fd : Nat}
    (hfd : fd < 3) : h.mine fd = none := by
  rcases hcopies.only fd with hnone | hout | herr
  · exact hnone
  · obtain ⟨d, hd⟩ := hcopies.stdout fd hout
    exact absurd hd.large (by omega)
  · obtain ⟨d, hd⟩ := hcopies.stderr fd herr
    exact absurd hd.large (by omega)

theorem Copies.dropped {out err : Option Nat} (hcopies : Copies std h out err)
    (hw : Holds base std ((h.dropped out).dropped err) w) : Holds base std .empty w := by
  refine hw.congr (fun fd => ?_) ?_ ?_
  · have := hcopies.only fd
    cases out <;> cases err <;> simp only [Hold.dropped] <;> grind
  · have := hcopies.pending
    cases out <;> cases err <;> exact this
  · have := hcopies.running
    cases out <;> cases err <;> exact this

/-- A copy that was saved is there to be dropped. -/
theorem Saved.held {target n : Nat} {d : Descriptor File} (hsaved : Saved std h target n d) :
    h.mine n ≠ none ∧ 3 ≤ n :=
  ⟨by simp [hsaved.copy], hsaved.large⟩

/-- The first stream is given up because the second could not be set up. -/
theorem dropFirst_spec {h' : Hold} {out err : Option Nat} {stdout : Option StreamCapture}
    (hcopies : Copies std h out err) (hstdout : StreamIn h std 1 out stdout h') :
    Ensures Aborts (Holds base std (h'.dropped err)) (dropStream stdout)
      fun _ => Holds base std .empty := by
  rcases out with - | n <;> rcases stdout with - | stream
  · cases hstdout
    exact .pure fun w hw => hcopies.dropped hw
  · exact hstdout.elim
  · exact hstdout.elim
  · obtain ⟨d, hcaptures, hsaved, rfl⟩ := hstdout
    have hlarge := hsaved.large
    have hsame : ((h.redirected 1 stream.reader).dropped err).mine n = h.mine n := by
      cases err with
      | none => grind [Hold.dropped]
      | some m =>
          have := hcopies.distinct n m rfl rfl
          simp only [Hold.dropped]
          grind
    refine (StreamCapture.drop_spec hcaptures (hsaved.mono hsame)).weaken
      fun _ w hw => hw.congr (fun fd => ?_) ?_ ?_
    · have := hcopies.only fd
      cases err <;> simp only [Hold.dropped, Hold.stopped] <;> grind
    · have := hcopies.pending
      cases err <;> exact this
    · have := hcopies.running
      cases err <;> simp [Hold.dropped, Hold.stopped, Hold.put, Hold.redirected, Hold.empty, this]

/-- What a stream that is set up changes of the hold. -/
theorem StreamIn.changes {h' : Hold} {target : Nat} {saved : Option Nat}
    {stream : Option StreamCapture} (hstream : StreamIn h std target saved stream h') :
    (∀ fd, h'.mine fd = h.mine fd ∨ fd = target ∧ stream ≠ none) ∧ h'.pending = h.pending ∧
      (∀ pipe ∈ h'.running, pipe ∈ h.running ∨ ∃ s, stream = some s ∧ s.reader = pipe) ∧
      ∀ n, saved = some n → ∃ s, stream = some s ∧ s.saved = some n := by
  rcases saved with - | n <;> rcases stream with - | s
  · cases hstream
    exact ⟨fun _ => .inl rfl, rfl, fun _ hpipe => .inl hpipe, nofun⟩
  · exact hstream.elim
  · exact hstream.elim
  · obtain ⟨d, hcaptures, -, rfl⟩ := hstream
    refine ⟨fun fd => ?_, rfl, fun pipe hpipe => ?_, fun m hm => ⟨s, rfl, hm ▸ hcaptures.saved⟩⟩
    · by_cases hfd : fd = target
      · exact .inr ⟨hfd, nofun⟩
      · exact .inl (by grind)
    · rcases List.mem_cons.mp hpipe with rfl | hpipe
      · exact .inr ⟨s, rfl, rfl⟩
      · exact .inl hpipe

theorem StreamIn.inPlace {h' : Hold} {target : Nat} {saved : Option Nat} {s : StreamCapture}
    (hstream : StreamIn h std target saved (some s) h') :
    InPlace std h' target s ∧ s.saved = saved := by
  rcases saved with - | n
  · exact hstream.elim
  · obtain ⟨d, hcaptures, hsaved, rfl⟩ := hstream
    have hlarge := hsaved.large
    have hstandard := hsaved.standard
    exact ⟨⟨⟨n, d, hcaptures, hsaved.mono (by grind)⟩, by grind⟩, hcaptures.saved⟩

/-- The first stream stays in place while the second is set up. -/
theorem InPlace.mono {h' : Hold} {s : StreamCapture} (hplace : InPlace std h 1 s)
    (hsame : ∀ fd, fd ≠ 2 → h'.mine fd = h.mine fd) : InPlace std h' 1 s := by
  obtain ⟨⟨n, d, hcaptures, hsaved⟩, hredirects⟩ := hplace
  have hlarge := hsaved.large
  exact ⟨⟨n, d, hcaptures, hsaved.mono (hsame n (by omega))⟩,
    (hsame 1 (by omega)).trans hredirects⟩

/-- What is in place once both streams are set up. -/
theorem Copies.placed {h₁ h₂ : Hold} {out err : Option Nat} {stdout stderr : Option StreamCapture}
    (hcopies : Copies std h out err) (hstdout : StreamIn h std 1 out stdout h₁)
    (hstderr : StreamIn h₁ std 2 err stderr h₂) : Placed std h₂ { stdout, stderr } := by
  obtain ⟨hmine₁, hpending₁, -, hout⟩ := hstdout.changes
  obtain ⟨hmine₂, hpending₂, -, herr⟩ := hstderr.changes
  constructor
  · rintro s rfl
    exact hstdout.inPlace.1.mono fun fd hfd => by
      rcases hmine₂ fd with hsame | ⟨heq, -⟩
      · exact hsame
      · exact absurd heq hfd
  · rintro s rfl
    exact hstderr.inPlace.1
  · rintro o e rfl rfl
    rw [hstdout.inPlace.2, hstderr.inPlace.2]
    rintro rfl
    cases out with
    | none => exact hstdout.elim
    | some n => exact hcopies.distinct n n rfl rfl rfl
  · intro fd
    rcases hmine₂ fd with hsame₂ | ⟨rfl, hne⟩
    · rcases hmine₁ fd with hsame₁ | ⟨rfl, hne⟩
      · rcases hcopies.only fd with hnone | hfd | hfd
        · exact .inl (by rw [hsame₂, hsame₁, hnone])
        · obtain ⟨s, hs, hcopy⟩ := hout fd hfd
          exact .inr (.inl ⟨s, hs, .inr hcopy⟩)
        · obtain ⟨s, hs, hcopy⟩ := herr fd hfd
          exact .inr (.inr ⟨s, hs, .inr hcopy⟩)
      · obtain ⟨s, hs⟩ := Option.ne_none_iff_exists'.mp hne
        exact .inr (.inl ⟨s, hs, .inl rfl⟩)
    · obtain ⟨s, hs⟩ := Option.ne_none_iff_exists'.mp hne
      exact .inr (.inr ⟨s, hs, .inl rfl⟩)
  · rw [hpending₂, hpending₁, hcopies.pending]

theorem Copies.runs {h₁ h₂ : Hold} {out err : Option Nat} {stdout stderr : Option StreamCapture}
    (hcopies : Copies std h out err) (hstdout : StreamIn h std 1 out stdout h₁)
    (hstderr : StreamIn h₁ std 2 err stderr h₂) : Runs h₂ { stdout, stderr } := by
  intro pipe hpipe
  rcases hstderr.changes.2.2.1 pipe hpipe with hpipe | hpipe
  · rcases hstdout.changes.2.2.1 pipe hpipe with hpipe | hpipe
    · rw [hcopies.running] at hpipe
      cases hpipe
    · exact .inl hpipe
  · exact .inr hpipe

/-- A stream that is redirected leaves the copies of the others alone. -/
theorem StreamIn.saved {h' : Hold} {out : Option Nat} {stdout : Option StreamCapture}
    (hstdout : StreamIn h std 1 out stdout h') {n : Nat} {e : Descriptor File}
    (hsaved : Saved std h 2 n e) : Saved std h' 2 n e := by
  have hlarge := hsaved.large
  rcases out with - | m <;> rcases stdout with - | s
  · exact hstdout ▸ hsaved
  · exact hstdout.elim
  · exact hstdout.elim
  · obtain ⟨d, -, -, rfl⟩ := hstdout
    exact hsaved.mono (by grind)

theorem StreamIn.free {h' : Hold} {out : Option Nat} {stdout : Option StreamCapture}
    (hstdout : StreamIn h std 1 out stdout h') (hfree : h.mine 2 = none) : h'.mine 2 = none := by
  rcases out with - | m <;> rcases stdout with - | s
  · exact hstdout ▸ hfree
  · exact hstdout.elim
  · exact hstdout.elim
  · obtain ⟨d, -, -, rfl⟩ := hstdout
    grind

/-- `OutputCapture::new` puts the streams in place that are captured, or leaves nothing behind. -/
theorem OutputCapture.new_spec (captureStdout captureStderr : Bool) :
    Ensures Aborts (Holds base std .empty) (new captureStdout captureStderr) (answered
      (fun capture w => ∃ h, (Placed std h capture ∧ Runs h capture) ∧ Holds base std h w)
      (Holds base std .empty)) := by
  refine .attempt (flushed_spec captureStdout) (fun _ => .pure fun _ hw => hw) fun _ => ?_
  refine .attempt (flushed_spec captureStderr) (fun _ => .pure fun _ hw => hw) fun _ => ?_
  refine .attempt (saved_spec captureStdout (.inl rfl) rfl) (fun _ => .pure fun _ hw => hw)
    fun savedStdout => .exists_pre fun h₁ => .pure_pre fun hout => ?_
  have hcopies := hout.stdout
  refine .attempt (saved_spec captureStderr (.inr rfl) (hcopies.standard (by omega)))
    (fun _ => ?_) fun savedStderr => .exists_pre fun h₂ => .pure_pre fun herr => ?_
  · refine (dropSaved_spec fun n hn => ?_).weaken fun _ w hw => hcopies.dropped hw
    obtain ⟨d, hd⟩ := hcopies.stdout n hn
    exact hd.held
  have hcopies := herr.stderr hcopies
  refine .attempt (newStream_spec hcopies.stdout (hcopies.standard (by omega))) (fun _ => ?_)
    fun stdout => .exists_pre fun h₃ => .pure_pre fun hstdout => ?_
  · refine (dropSaved_spec fun n hn => ?_).weaken fun _ w hw => hcopies.dropped hw
    obtain ⟨d, hd⟩ := hcopies.stderr n hn
    refine (@Saved.mono _ _ (h₂.dropped savedStdout) _ _ _ hd ?_).held
    cases savedStdout with
    | none => rfl
    | some m =>
        have := hcopies.distinct m n rfl hn
        simp only [Hold.dropped]
        grind
  refine .attempt (newStream_spec (fun n hn => ?_)
    (hstdout.free (hcopies.standard (by omega)))) (fun _ => dropFirst_spec hcopies hstdout)
    fun stderr => .exists_pre fun h₄ => .pure_pre fun hstderr => ?_
  · obtain ⟨e, he⟩ := hcopies.stderr n hn
    exact ⟨e, hstdout.saved he⟩
  · exact .pure fun w hw =>
      ⟨h₄, ⟨hcopies.placed hstdout hstderr, hcopies.runs hstdout hstderr⟩, hw⟩

/-! ### The streams are restored -/

/-- A hold from which a restored stream has gone. -/
def Hold.restored (h : Hold) (target saved : Nat) : Hold := (h.put target none).put saved none

@[grind =]
theorem Hold.restored_mine (h : Hold) (target saved fd : Nat) :
    (h.restored target saved).mine fd =
      if fd = saved then none else if fd = target then none else h.mine fd := rfl

theorem Placed.restore_stdout {s : StreamCapture} {stderr : Option StreamCapture} {n : Nat}
    {d : Descriptor File} (hplaced : Placed std h { stdout := some s, stderr })
    (hcaptures : Captures s 1 n d) (hsaved : Saved std h 1 n d) :
    Placed std (h.restored 1 n) { stdout := none, stderr } := by
  have hlarge := hsaved.large
  have hcopy := hcaptures.saved
  refine ⟨nofun, fun t ht => ?_, fun _ _ hout => (by cases hout), fun fd => ?_,
    hplaced.pending⟩
  · obtain ⟨⟨m, e, hcaptures', hsaved'⟩, hredirects⟩ := hplaced.stderr t ht
    have hlarge' := hsaved'.large
    have hne := hplaced.distinct s t rfl ht
    rw [hcopy, hcaptures'.saved] at hne
    exact ⟨⟨m, e, hcaptures', hsaved'.mono (by grind)⟩, by grind⟩
  · rcases hplaced.only fd with hnone | ⟨s', hs', hfd⟩ | hfd
    · exact .inl (by grind)
    · cases hs'
      exact .inl (by grind)
    · exact .inr (.inr hfd)

theorem Placed.restore_stderr {t : StreamCapture} {n : Nat} {d : Descriptor File}
    (hplaced : Placed std h { stdout := none, stderr := some t }) (hcaptures : Captures t 2 n d) :
    Placed std (h.restored 2 n) { stdout := none, stderr := none } := by
  have hcopy := hcaptures.saved
  refine ⟨nofun, nofun, fun _ _ hout => (by cases hout), fun fd => ?_, hplaced.pending⟩
  rcases hplaced.only fd with hnone | ⟨s, hs, -⟩ | ⟨t', ht', hfd⟩
  · exact .inl (by grind)
  · cases hs
  · cases ht'
    exact .inl (by grind)

/-- With no stream in place nothing is held but readers that run. -/
theorem Placed.nothing (hplaced : Placed std h { stdout := none, stderr := none }) (fd : Nat) :
    h.mine fd = none := by
  rcases hplaced.only fd with hnone | ⟨_, hs, -⟩ | ⟨_, hs, -⟩
  · exact hnone
  · cases hs
  · cases hs

/-- A stream of a capture, and what is left of it once it is restored. -/
def Restored (stream restored : Option StreamCapture) : Prop :=
  match stream, restored with
  | none, none => True
  | some s, some r => r.saved = none ∧ r.reader = s.reader
  | _, _ => False

theorem restoreStdout_spec {capture : OutputCapture} (hplaced : Placed std h capture) :
    Ensures Aborts (Holds base std h) (OutputCapture.restoreStream capture.stdout)
      fun restored w => Restored capture.stdout restored ∧ ∃ h',
        (Placed std h' { capture with stdout := none } ∧ h'.running = h.running) ∧
          Holds base std h' w := by
  obtain ⟨stdout, stderr⟩ := capture
  cases stdout with
  | none => exact .pure fun w hw => ⟨trivial, h, ⟨hplaced, rfl⟩, hw⟩
  | some s =>
      obtain ⟨⟨n, d, hcaptures, hsaved⟩, -⟩ := hplaced.stdout s rfl
      exact (StreamCapture.restore_spec hcaptures hsaved).bind fun r => .pure fun w hw =>
        ⟨hw.1, h.restored 1 n, ⟨hplaced.restore_stdout hcaptures hsaved, rfl⟩, hw.2⟩

theorem restoreStderr_spec {stderr : Option StreamCapture}
    (hplaced : Placed std h { stdout := none, stderr }) :
    Ensures Aborts (Holds base std h) (OutputCapture.restoreStream stderr)
      fun restored w => Restored stderr restored ∧ ∃ h',
        (Placed std h' { stdout := none, stderr := none } ∧ h'.running = h.running) ∧
          Holds base std h' w := by
  cases stderr with
  | none => exact .pure fun w hw => ⟨trivial, h, ⟨hplaced, rfl⟩, hw⟩
  | some t =>
      obtain ⟨⟨n, d, hcaptures, hsaved⟩, -⟩ := hplaced.stderr t rfl
      exact (StreamCapture.restore_spec hcaptures hsaved).bind fun r => .pure fun w hw =>
        ⟨hw.1, h.restored 2 n, ⟨hplaced.restore_stderr hcaptures, rfl⟩, hw.2⟩

/-- A hold of readers alone, with those of the given streams running. -/
structure Collecting (h : Hold) (stdout stderr : Option StreamCapture) : Prop where
  mine : ∀ fd, h.mine fd = none
  pending : h.pending = 0
  running : ∀ pipe ∈ h.running, (∃ s, stdout = some s ∧ s.reader = pipe) ∨
    ∃ s, stderr = some s ∧ s.reader = pipe
  restoredStdout : ∀ s, stdout = some s → s.saved = none
  restoredStderr : ∀ s, stderr = some s → s.saved = none

/-- `OutputCapture::restore` gives back both streams, whatever fails. -/
theorem OutputCapture.restore_spec {capture : OutputCapture} (hplaced : Placed std h capture)
    (hruns : Runs h capture) :
    Ensures Aborts (Holds base std h) capture.restore fun pending w =>
      ∃ h', Collecting h' pending.stdout pending.stderr ∧ Holds base std h' w := by
  refine (restoreStdout_spec hplaced).bind fun stdout => .pure_pre fun hout =>
    .exists_pre fun h₁ => .pure_pre fun ⟨hplaced₁, hrunning₁⟩ => ?_
  refine (restoreStderr_spec hplaced₁).bind fun stderr => .pure_pre fun herr =>
    .exists_pre fun h₂ => .pure_pre fun ⟨hplaced₂, hrunning₂⟩ => .pure fun w hw => ?_
  obtain ⟨out, err⟩ := capture
  refine ⟨h₂, ⟨hplaced₂.nothing, hplaced₂.pending, fun pipe hpipe => ?_, ?_, ?_⟩, hw⟩
  · rw [hrunning₂, hrunning₁] at hpipe
    rcases hruns pipe hpipe with ⟨s, rfl, rfl⟩ | ⟨s, rfl, rfl⟩
    · cases stdout with
      | none => exact hout.elim
      | some r => exact .inl ⟨r, rfl, hout.2⟩
    · cases stderr with
      | none => exact herr.elim
      | some r => exact .inr ⟨r, rfl, herr.2⟩
  · rintro r rfl
    cases out with
    | none => exact hout.elim
    | some s => exact hout.1
  · rintro r rfl
    cases err with
    | none => exact herr.elim
    | some s => exact herr.1

/-- The reader of a stream, if it is captured, has been told to stop. -/
def Hold.collected (h : Hold) (stream : Option StreamCapture) : Hold :=
  { h with running := h.running.filter fun pipe => stream.map (·.reader) ≠ some pipe }

theorem collectStream_spec {stream : Option StreamCapture}
    (hrestored : ∀ s, stream = some s → s.saved = none)
    (blocks : Except IoError (List UInt8 × Bool)) :
    Ensures Aborts (Holds base std h) (OutputCapture.collectStream stream blocks) fun _ =>
      Holds base std (h.collected stream) := by
  cases stream with
  | none => exact .pure fun w hw => hw.congr (fun _ => rfl) rfl (by simp [Hold.collected])
  | some s =>
      refine (StreamCapture.drop_restored (hrestored s rfl)).bind fun _ => .pure fun w hw =>
        hw.congr (fun _ => rfl) rfl ?_
      simp [Hold.stopped, Hold.collected, eq_comm]

theorem OutputCapture.collect_spec {pending : OutputCapture}
    (hcollecting : Collecting h pending.stdout pending.stderr)
    (outBlocks errBlocks : Except IoError (List UInt8 × Bool)) :
    Ensures Aborts (Holds base std h) (pending.collect outBlocks errBlocks) fun _ =>
      Holds base std .empty := by
  refine (collectStream_spec hcollecting.restoredStdout outBlocks).bind fun stdout =>
    (collectStream_spec hcollecting.restoredStderr errBlocks).bind fun stderr => ?_
  have hnone : ((h.collected pending.stdout).collected pending.stderr).running = [] := by
    refine List.eq_nil_iff_forall_not_mem.mpr fun pipe hpipe => ?_
    simp only [Hold.collected, List.mem_filter, decide_eq_true_eq] at hpipe
    obtain ⟨⟨hpipe, hout⟩, herr⟩ := hpipe
    rcases hcollecting.running pipe hpipe with ⟨s, hs, rfl⟩ | ⟨s, hs, rfl⟩
    · exact hout (by rw [hs]; rfl)
    · exact herr (by rw [hs]; rfl)
  have hdone : ∀ w, Holds base std ((h.collected pending.stdout).collected pending.stderr) w →
      Holds base std .empty w := fun w hw =>
    hw.congr hcollecting.mine hcollecting.pending hnone
  rcases stdout with error | ⟨out, truncOut⟩
  · exact .pure hdone
  · rcases stderr with error | ⟨err, truncErr⟩
    · exact .pure hdone
    · exact .pure hdone

theorem dropStdout_spec {capture : OutputCapture} (hplaced : Placed std h capture)
    (hruns : Runs h capture) :
    Ensures Aborts (Holds base std h) (dropStream capture.stdout) fun _ w =>
      ∃ h', (Placed std h' { capture with stdout := none } ∧
        Runs h' { capture with stdout := none }) ∧ Holds base std h' w := by
  obtain ⟨stdout, stderr⟩ := capture
  cases stdout with
  | none => exact .pure fun w hw => ⟨h, ⟨hplaced, hruns⟩, hw⟩
  | some s =>
      obtain ⟨⟨n, d, hcaptures, hsaved⟩, -⟩ := hplaced.stdout s rfl
      refine (StreamCapture.drop_spec hcaptures hsaved).weaken fun _ w hw =>
        ⟨(h.restored 1 n).stopped s.reader, ⟨?_, fun pipe hpipe => ?_⟩, hw⟩
      · obtain ⟨hout, herr, hdistinct, honly, hpending⟩ :=
          hplaced.restore_stdout hcaptures hsaved
        refine ⟨nofun, fun t ht => ?_, fun _ _ hout => (by cases hout), honly, hpending⟩
        obtain ⟨⟨m, e, hcaptures', hsaved'⟩, hredirects⟩ := herr t ht
        exact ⟨⟨m, e, hcaptures', hsaved'.mono rfl⟩, hredirects⟩
      · obtain ⟨hpipe, hne⟩ := List.mem_filter.mp hpipe
        rcases hruns pipe hpipe with ⟨s', hs', rfl⟩ | herr
        · cases hs'
          simp at hne
        · exact .inr herr

theorem dropStderr_spec {stderr : Option StreamCapture}
    (hplaced : Placed std h { stdout := none, stderr })
    (hruns : Runs h { stdout := none, stderr }) :
    Ensures Aborts (Holds base std h) (dropStream stderr) fun _ => Holds base std .empty := by
  cases stderr with
  | none =>
      refine .pure fun w hw => hw.congr hplaced.nothing hplaced.pending ?_
      refine List.eq_nil_iff_forall_not_mem.mpr fun pipe hpipe => ?_
      rcases hruns pipe hpipe with ⟨s, hs, -⟩ | ⟨s, hs, -⟩ <;> cases hs
  | some t =>
      obtain ⟨⟨n, d, hcaptures, hsaved⟩, -⟩ := hplaced.stderr t rfl
      refine (StreamCapture.drop_spec hcaptures hsaved).weaken fun _ w hw =>
        hw.congr (hplaced.restore_stderr hcaptures).nothing hplaced.pending ?_
      refine List.eq_nil_iff_forall_not_mem.mpr fun pipe hpipe => ?_
      obtain ⟨hpipe, hne⟩ := List.mem_filter.mp hpipe
      rcases hruns pipe hpipe with ⟨s, hs, -⟩ | ⟨s, hs, rfl⟩ <;> cases hs
      simp at hne

/-- The drop of a capture gives back both streams too. -/
theorem OutputCapture.drop_spec {capture : OutputCapture} (hplaced : Placed std h capture)
    (hruns : Runs h capture) :
    Ensures Aborts (Holds base std h) capture.drop fun _ => Holds base std .empty :=
  (dropStdout_spec hplaced hruns).bind fun _ => .exists_pre fun _ => .pure_pre fun hnext =>
    dropStderr_spec hnext.1 hnext.2

/-! ### The captured run -/

theorem capturedRun_spec (captureStdout captureStderr panics : Bool)
    (outBlocks errBlocks : Except IoError (List UInt8 × Bool)) :
    Ensures Aborts (Holds base std .empty)
      (capturedRun captureStdout captureStderr panics outBlocks errBlocks) fun _ =>
        Holds base std .empty := by
  refine .attempt (OutputCapture.new_spec captureStdout captureStderr)
    (fun _ => .pure fun _ hw => hw)
    fun capture => .exists_pre fun h => .pure_pre fun ⟨hplaced, hruns⟩ => ?_
  refine turn_spec.bind fun _ => .ite (fun _ => ?_) fun _ => ?_
  · exact (OutputCapture.drop_spec hplaced hruns).bind fun _ => .pure fun _ hw => hw
  · exact (OutputCapture.restore_spec hplaced hruns).bind fun pending =>
      .exists_pre fun h' => .pure_pre fun hcollecting =>
        (OutputCapture.collect_spec hcollecting outBlocks errBlocks).bind fun _ =>
          .pure fun _ hw => hw

end

/-- No capture is in progress: the table is the host's but for the readers that still run, and
each of these holds its slot of the budget. -/
structure Settled (w : World) : Prop where
  table : ∀ fd, w.table.entry fd = w.host.entry fd ∨ ∃ r ∈ w.readers, r.readFd = some fd
  ends : ∀ r ∈ w.readers, ∀ fd, r.readFd = some fd → w.host.entry fd = none ∧ fd ≠ 1 ∧ fd ≠ 2 ∧
    w.table.entry fd = some { file := .pipeRead r.pipe, cloexec := true }
  active : w.active = w.readers.length
  hosted : ∀ fd d, w.host.entry fd = some d → ∃ id, d.file = .host id

/-- What a captured run that starts in `w` may come to. Where it returns, the descriptors are
those the host has made, but for the read ends of readers that were told to stop; fd 1 and fd 2
are what they were, flag and all; and no write end of a pipe is left open. Where it aborts the
process, restoring a stream has failed for good. -/
inductive Restores {α : Type} (w : World) : Except Abort (α × World) → Prop
  | returns (answer : α) (w' : World) (settled : Settled w')
      (standard : ∀ fd, fd = 1 ∨ fd = 2 → w'.table.entry fd = w.table.entry fd)
      (stopped : ∀ r ∈ w'.readers, r.pipe < w.next ∨ r.stop = true)
      (closed : ∀ fd pipe cloexec,
        w'.table.entry fd ≠ some { file := .pipeWrite pipe, cloexec }) :
      Restores w (.ok (answer, w'))
  | aborts (abort : Abort) (final : abort.error.kind ≠ .interrupted) : Restores w (.error abort)

/-- However the calls of a captured run fail, and whatever the other threads do meanwhile. -/
theorem captured_run_restores (captureStdout captureStderr panics : Bool)
    (outBlocks errBlocks : Except IoError (List UInt8 × Bool)) (w : World) (settled : Settled w)
    (older : ∀ r ∈ w.readers, r.pipe < w.next) :
    Restores w (capturedRun captureStdout captureStderr panics outBlocks errBlocks w) := by
  have hstart : Holds w.next w.host.entry .empty w :=
    ⟨nofun, fun fd _ => settled.table fd, nofun, fun r hr fd hfd => ⟨rfl, settled.ends r hr fd hfd⟩,
      fun _ _ => rfl, settled.active, fun r hr => .inl (older r hr), settled.hosted⟩
  have hrun := capturedRun_spec captureStdout captureStderr panics outBlocks errBlocks w hstart
  cases hout : capturedRun captureStdout captureStderr panics outBlocks errBlocks w with
  | error abort =>
      rw [hout] at hrun
      exact .aborts abort hrun
  | ok out =>
      obtain ⟨answer, w'⟩ := out
      rw [hout] at hrun
      have hw : Holds w.next w.host.entry .empty w' := hrun
      have hends : ∀ r ∈ w'.readers, ∀ fd, r.readFd = some fd → w'.host.entry fd = none ∧
          fd ≠ 1 ∧ fd ≠ 2 ∧
          w'.table.entry fd = some { file := .pipeRead r.pipe, cloexec := true } :=
        fun r hr fd hfd => (hw.ends r hr fd hfd).2
      refine .returns answer w' ⟨fun fd => hw.rest fd rfl, hends, hw.active, hw.hosted⟩
        (fun fd hfd => ?_) (fun r hr => ?_) fun fd pipe cloexec hfd => ?_
      · rw [hw.entry_std hfd rfl, hstart.entry_std hfd rfl]
      · rcases hw.stopped r hr with hold | hstop | hrunning
        · exact .inl hold
        · exact .inr hstop
        · cases hrunning
      · rcases hw.rest fd rfl with hsame | ⟨r, hr, hopen⟩
        · obtain ⟨id, hid⟩ := hw.hosted fd _ (hsame ▸ hfd)
          cases hid
        · rw [(hends r hr fd hopen).2.2.2] at hfd
          cases hfd

/-- A host with its three standard streams open, where a call for the second captured stream
fails and restoring the first is interrupted once. -/
def sampleWorld : World where
  table := [some ⟨.host 0, false⟩, some ⟨.host 1, false⟩, some ⟨.host 2, true⟩]
  host := [some ⟨.host 0, false⟩, some ⟨.host 1, false⟩, some ⟨.host 2, true⟩]
  next := 0
  active := 0
  readers := []
  script := List.replicate 21 ⟨[], none⟩ ++
    [⟨[.host 9 (some (7, true))], some badDescriptor⟩, ⟨[.readerCloses 5], none⟩, ⟨[], none⟩,
      ⟨[], some ⟨.interrupted, "Interrupted system call (os error 4)"⟩⟩]

theorem captured_run_restores_sample :
    Restores sampleWorld
      (capturedRun true true false (.ok ([], false)) (.ok ([], false)) sampleWorld) :=
  captured_run_restores true true false (.ok ([], false)) (.ok ([], false)) sampleWorld
    ⟨fun _ => .inl rfl, nofun, rfl, fun fd d hd => by
      rcases fd with - | - | - | fd <;> cases hd <;> exact ⟨_, rfl⟩⟩ nofun

end Libdeno.Output.Redirect
