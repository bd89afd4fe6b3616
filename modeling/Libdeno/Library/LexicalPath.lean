import Mathlib.Data.List.Infix
import Mathlib.Data.List.TakeWhile
import Mathlib.Tactic.Common

/-!
# Libdeno.Library.LexicalPath

**Paths as texts and as components.** A path is cut at its separators; empty pieces and `.`
say nothing, `..` goes up. Normalising lexically runs the components over a stack, without a
look at the file system.

What follows a base and never climbs above it (`StaysBelow`) stays in the base after
normalisation, whatever the base looks like (`normalize_append`): every `..` of it takes back
a name of its own. `walk` decides this with a counter. A path of names only, joined to a
directory, is below it by these names (`Below.join`).
-/

namespace LexicalPath

variable {ν : Type*}

/-- `std::path::Component`; a drive is a Windows prefix. -/
inductive Component (ν : Type*)
  | drive (name : ν)
  | rootDir
  | curDir
  | parentDir
  | normal (name : ν)
  deriving DecidableEq, Repr

namespace Component

@[simp] def isNormal : Component ν → Bool
  | .normal _ => true
  | _ => false

@[simp] def isParent : Component ν → Bool
  | .parentDir => true
  | _ => false

/-- The component makes a path absolute. -/
@[simp] def isAnchor : Component ν → Bool
  | .drive _ => true
  | .rootDir => true
  | _ => false

end Component

/-! ### Normalising -/

/-- One component on the stack of those before it, the last one first. -/
def push (stack : List (Component ν)) : Component ν → List (Component ν)
  | .curDir => stack
  | .parentDir =>
      match stack with
      | .normal _ :: rest => rest
      | .rootDir :: _ => stack
      | _ => .parentDir :: stack
  | c => c :: stack

/-- The components without `.`, and without `..` where it takes back a name. -/
def normalize (cs : List (Component ν)) : List (Component ν) := (cs.foldl push []).reverse

/-! ### Walking down from a base -/

/-- The depth behind the components, unless they climb above the start. -/
def walk (depth : Nat) : List (Component ν) → Option Nat
  | [] => some depth
  | .normal _ :: cs => walk (depth + 1) cs
  | .curDir :: cs => walk depth cs
  | .parentDir :: cs => if depth = 0 then none else walk (depth - 1) cs
  | .rootDir :: _ | .drive _ :: _ => none

/-- Nowhere on the way have there been more `..` than names, and nothing starts over. -/
def StaysBelow (cs : List (Component ν)) : Prop :=
  ∀ visited, visited <+: cs →
    (∀ c ∈ visited, c.isAnchor = false) ∧
      visited.countP Component.isParent ≤ visited.countP Component.isNormal

/-- The statement about every part of the way, from a certain depth. -/
def StaysBelowFrom (depth : Nat) (cs : List (Component ν)) : Prop :=
  ∀ visited, visited <+: cs →
    (∀ c ∈ visited, c.isAnchor = false) ∧
      visited.countP Component.isParent ≤ depth + visited.countP Component.isNormal

theorem staysBelowFrom_nil (depth : Nat) : StaysBelowFrom depth ([] : List (Component ν)) := by
  intro visited h
  rw [List.prefix_nil.mp h]
  simp

/-- The parts of the way that begin with a component. -/
theorem staysBelowFrom_cons {depth : Nat} {c : Component ν} {cs : List (Component ν)} :
    StaysBelowFrom depth (c :: cs) ↔ c.isAnchor = false ∧
      ∀ visited, visited <+: cs → (∀ c ∈ visited, c.isAnchor = false) ∧
        visited.countP Component.isParent + (if c.isParent then 1 else 0) ≤
          depth + (visited.countP Component.isNormal + if c.isNormal then 1 else 0) := by
  constructor
  · intro h
    have hfirst := h [c] (by simp)
    refine ⟨hfirst.1 c (by simp), fun visited hvisited => ?_⟩
    obtain ⟨hanchor, hcount⟩ := h (c :: visited) (by simpa using hvisited)
    rw [List.countP_cons, List.countP_cons] at hcount
    exact ⟨fun d mem => hanchor d (List.mem_cons_of_mem _ mem), hcount⟩
  · rintro ⟨hc, h⟩ visited hvisited
    cases visited with
    | nil => simp
    | cons d visited =>
        obtain ⟨rfl, hrest⟩ := List.cons_prefix_cons.mp hvisited
        obtain ⟨hanchor, hcount⟩ := h visited hrest
        rw [List.countP_cons, List.countP_cons]
        exact ⟨List.forall_mem_cons.mpr ⟨hc, hanchor⟩, hcount⟩

/-- Going below a name is being one deeper. -/
theorem staysBelowFrom_normal {depth : Nat} {name : ν} {cs : List (Component ν)} :
    StaysBelowFrom depth (.normal name :: cs) ↔ StaysBelowFrom (depth + 1) cs := by
  rw [staysBelowFrom_cons, StaysBelowFrom]
  simp only [Component.isAnchor, Component.isParent, Component.isNormal, true_and]
  refine forall₂_congr fun visited _ => and_congr_right fun _ => ?_
  simp only [Bool.false_eq_true, if_false, if_true]
  omega

theorem staysBelowFrom_curDir {depth : Nat} {cs : List (Component ν)} :
    StaysBelowFrom depth (.curDir :: cs) ↔ StaysBelowFrom depth cs := by
  rw [staysBelowFrom_cons, StaysBelowFrom]
  simp only [Component.isAnchor, Component.isParent, Component.isNormal, true_and]
  refine forall₂_congr fun visited _ => and_congr_right fun _ => ?_
  simp only [Bool.false_eq_true, if_false]
  omega

/-- `..` needs a name to take back. -/
theorem staysBelowFrom_parentDir {depth : Nat} {cs : List (Component ν)} :
    StaysBelowFrom depth (.parentDir :: cs) ↔ depth ≠ 0 ∧ StaysBelowFrom (depth - 1) cs := by
  rw [staysBelowFrom_cons, StaysBelowFrom]
  simp only [Component.isAnchor, Component.isParent, Component.isNormal, true_and,
    Bool.false_eq_true, if_false, if_true]
  constructor
  · intro h
    have hfirst := (h [] List.nil_prefix).2
    simp only [List.countP_nil] at hfirst
    refine ⟨by omega, fun visited hvisited => ?_⟩
    obtain ⟨hanchor, hcount⟩ := h visited hvisited
    exact ⟨hanchor, by omega⟩
  · rintro ⟨hdepth, h⟩ visited hvisited
    obtain ⟨hanchor, hcount⟩ := h visited hvisited
    exact ⟨hanchor, by omega⟩

theorem walk_isSome_from {depth : Nat} {cs : List (Component ν)} :
    (walk depth cs).isSome ↔ StaysBelowFrom depth cs := by
  induction cs generalizing depth with
  | nil => simp [walk, staysBelowFrom_nil]
  | cons c cs ih =>
      cases c with
      | normal name => rw [walk, ih, staysBelowFrom_normal]
      | curDir => rw [walk, ih, staysBelowFrom_curDir]
      | parentDir =>
          rw [walk, staysBelowFrom_parentDir]
          split_ifs with hdepth
          · simp [hdepth]
          · rw [ih]
            simp [hdepth]
      | rootDir => simp [walk, staysBelowFrom_cons]
      | drive name => simp [walk, staysBelowFrom_cons]

/-- The counter decides it. -/
theorem walk_isSome {cs : List (Component ν)} : (walk 0 cs).isSome ↔ StaysBelow cs := by
  rw [walk_isSome_from, StaysBelowFrom, StaysBelow]
  simp

/-- On the stack of a base, with so many names above it, the walk leaves the base alone. -/
theorem foldl_push_walk {cs : List (Component ν)} {depth : Nat} (top base : List (Component ν))
    (h : walk top.length cs = some depth) (normal : ∀ c ∈ top, c.isNormal = true) :
    ∃ top', cs.foldl push (top ++ base) = top' ++ base ∧ top'.length = depth ∧
      ∀ c ∈ top', c.isNormal = true := by
  induction cs generalizing top with
  | nil => exact ⟨top, rfl, Option.some.inj h, normal⟩
  | cons c cs ih =>
      rw [List.foldl_cons]
      cases c with
      | normal name =>
          exact ih (.normal name :: top) h (List.forall_mem_cons.mpr ⟨rfl, normal⟩)
      | curDir => exact ih top h normal
      | parentDir =>
          rw [walk] at h
          split_ifs at h with hdepth
          cases top with
          | nil => exact absurd rfl hdepth
          | cons d top =>
              obtain ⟨hd, htop⟩ := List.forall_mem_cons.mp normal
              cases d with
              | normal name => exact ih top h htop
              | _ => cases hd
      | rootDir => cases h
      | drive name => cases h

/-- **What stays below a base is in it.** -/
theorem normalize_append (base : List (Component ν)) {rest : List (Component ν)}
    (h : StaysBelow rest) :
    ∃ below, normalize (base ++ rest) = normalize base ++ below ∧
      ∀ c ∈ below, c.isNormal = true := by
  obtain ⟨depth, hwalk⟩ := Option.isSome_iff_exists.mp (walk_isSome.mpr h)
  obtain ⟨top, htop, -, hnormal⟩ :=
    foldl_push_walk [] (base.foldl push []) hwalk (by simp)
  refine ⟨top.reverse, ?_, fun c mem => hnormal c (List.mem_reverse.mp mem)⟩
  rw [List.nil_append] at htop
  rw [normalize, List.foldl_append, htop, List.reverse_append]
  rfl

/-- Names alone are kept as they are. -/
theorem normalize_append_names (base : List (Component ν)) (names : List ν) :
    normalize (base ++ names.map .normal) = normalize base ++ names.map .normal := by
  have hpush : ∀ stack : List (Component ν),
      (names.map Component.normal).foldl push stack =
        (names.map Component.normal).reverse ++ stack := by
    induction names with
    | nil => exact fun _ => rfl
    | cons name names ih =>
        intro stack
        rw [List.map_cons, List.foldl_cons, ih, List.reverse_cons, List.append_assoc]
        rfl
  rw [normalize, List.foldl_append, hpush, List.reverse_append, List.reverse_reverse]
  rfl

/-! ### Paths as texts -/

variable {α : Type*} [DecidableEq α]

/-- The characters of a path that mean something. -/
structure PathSyntax (α : Type*) where
  isSep : α → Bool
  sep : α
  dot : α
  isSep_sep : isSep sep = true
  isSep_dot : isSep dot = false

namespace PathSyntax

variable (s : PathSyntax α)

/-- What a piece between separators stands for. -/
def component (piece : List α) : Option (Component (List α)) :=
  if piece = [] ∨ piece = [s.dot] then none
  else if piece = [s.dot, s.dot] then some .parentDir
  else some (.normal piece)

/-- `Path::components`: a root in front, or a `.` in front; other dots are dropped. -/
def components (text : List α) : List (Component (List α)) :=
  let pieces := text.splitOnP s.isSep
  if text.head?.any s.isSep then .rootDir :: pieces.filterMap s.component
  else if pieces.head? = some [s.dot] then .curDir :: pieces.filterMap s.component
  else pieces.filterMap s.component

/-- `Path::join`: an absolute path replaces the base. -/
def join (dir path : List α) : List α :=
  if path.head?.any s.isSep then path
  else if dir = [] ∨ dir.getLast?.any s.isSep then dir ++ path
  else dir ++ s.sep :: path

/-- A path read backwards, without the separators and the dots at its end. -/
def trimBack : List α → List α
  | [] => []
  | [c] => [c]
  | c :: d :: before =>
      if s.isSep c || (c = s.dot && s.isSep d) then trimBack (d :: before) else c :: d :: before

/-- `Path::parent`: without the last component, unless there is none or the root alone. -/
def parent (path : List α) : Option (List α) :=
  let back := s.trimBack path.reverse
  if back = [] ∨ (back.length = 1 ∧ back.head?.any s.isSep) then none
  else some (s.trimBack (back.dropWhile fun c => !s.isSep c)).reverse

/-- The path is below the directory by these names, after normalisation. -/
def BelowBy (dir path : List α) (names : List (List α)) : Prop :=
  normalize (s.components path) = normalize (s.components dir) ++ names.map .normal

/-- The path is a strict descendant of the directory. -/
def Below (dir path : List α) : Prop := ∃ names, names ≠ [] ∧ s.BelowBy dir path names

/-- The path is the directory or a descendant of it. -/
def Within (dir path : List α) : Prop := ∃ names, s.BelowBy dir path names

/-- The path consists of names alone. -/
structure PlainPath (path : List α) : Prop where
  relative : path.head?.any s.isSep = false
  names : ∀ piece ∈ path.splitOnP s.isSep,
    piece ≠ [] ∧ piece ≠ [s.dot] ∧ piece ≠ [s.dot, s.dot]

variable {s}

@[simp] theorem component_nil : s.component [] = none := by simp [component]

/-- A piece that is no dot and not empty is a name. -/
theorem component_name {piece : List α}
    (h : piece ≠ [] ∧ piece ≠ [s.dot] ∧ piece ≠ [s.dot, s.dot]) :
    s.component piece = some (.normal piece) := by
  simp [component, h]

/-- What is joined behind a separator adds its pieces. -/
theorem components_append_sep {dir : List α} {c : α} (hc : s.isSep c = true) (path : List α) :
    s.components (dir ++ c :: path) =
      s.components (dir ++ [c]) ++ (path.splitOnP s.isSep).filterMap s.component := by
  have hpieces : ∀ rest, (dir ++ c :: rest).splitOnP s.isSep =
      dir.splitOnP s.isSep ++ rest.splitOnP s.isSep :=
    fun rest => List.splitOnP_append_cons dir rest hc
  have hhead : ∀ rest, (dir ++ c :: rest).head? = (dir ++ [c]).head? := by
    intro rest
    cases dir <;> rfl
  have hfirst : ∀ rest, (dir.splitOnP s.isSep ++ rest).head? =
      (dir.splitOnP s.isSep).head? := by
    intro rest
    rw [List.head?_append_of_ne_nil _ (List.splitOnP_ne_nil _ _)]
  simp only [components, hpieces, hhead path, hfirst, List.filterMap_append]
  have hnil : (([] : List α).splitOnP s.isSep).filterMap s.component = [] := by simp
  rw [hnil, List.append_nil]
  split_ifs <;> rfl

/-- A separator at the end says nothing. -/
theorem components_append_singleton {dir : List α} {c : α} (hc : s.isSep c = true)
    (hdir : dir ≠ []) : s.components (dir ++ [c]) = s.components dir := by
  have hpieces : (dir ++ [c]).splitOnP s.isSep = dir.splitOnP s.isSep ++ [[]] :=
    List.splitOnP_append_cons dir [] hc
  have hhead : (dir ++ [c]).head? = dir.head? := List.head?_append_of_ne_nil _ hdir
  have hfirst : (dir.splitOnP s.isSep ++ [[]]).head? = (dir.splitOnP s.isSep).head? :=
    List.head?_append_of_ne_nil _ (List.splitOnP_ne_nil _ _)
  simp only [components, hpieces, hhead, hfirst, List.filterMap_append]
  have hnil : [([] : List α)].filterMap s.component = [] := by simp
  rw [hnil, List.append_nil]

/-- A relative path adds its pieces to a directory. -/
theorem components_join {dir path : List α} (hpath : path.head?.any s.isSep = false)
    (hdir : dir ≠ []) :
    s.components (s.join dir path) =
      s.components dir ++ (path.splitOnP s.isSep).filterMap s.component := by
  rw [join, hpath, if_neg Bool.false_ne_true]
  by_cases hlast : dir.getLast?.any s.isSep = true
  · obtain ⟨before, c, rfl⟩ := (List.eq_nil_or_concat' dir).resolve_left hdir
    have hc : s.isSep c = true := by simpa using hlast
    rw [if_pos (.inr hlast), List.append_assoc]
    exact components_append_sep hc path
  · rw [if_neg (by simp [hdir, hlast]), components_append_sep s.isSep_sep,
      components_append_singleton s.isSep_sep hdir]

/-- Names alone are added as they are. -/
theorem PlainPath.components_join {path : List α} (h : s.PlainPath path) (dir : List α) :
    s.components (s.join dir path) =
      s.components dir ++ (path.splitOnP s.isSep).map .normal := by
  have hnames : (path.splitOnP s.isSep).filterMap s.component =
      (path.splitOnP s.isSep).map .normal := by
    rw [← List.filterMap_eq_map]
    exact List.filterMap_congr fun piece mem => component_name (h.names piece mem)
  by_cases hdir : dir = []
  · subst hdir
    have hfirst : (path.splitOnP s.isSep).head? ≠ some [s.dot] := by
      intro heq
      exact (h.names _ (List.mem_of_head? heq)).2.1 rfl
    have hjoin : s.join [] path = path := by simp [join]
    have hempty : s.components [] = [] := by simp [components]
    rw [hjoin, hempty, List.nil_append, components, h.relative, if_neg Bool.false_ne_true]
    simp only [if_neg hfirst, hnames]
  · rw [PathSyntax.components_join h.relative hdir, hnames]

/-- **A path of names only, joined to a directory, is below it by these names.** -/
theorem PlainPath.belowBy {path : List α} (h : s.PlainPath path) (dir : List α) :
    s.BelowBy dir (s.join dir path) (path.splitOnP s.isSep) := by
  rw [BelowBy, h.components_join, normalize_append_names]

theorem PlainPath.below {path : List α} (h : s.PlainPath path) (dir : List α) :
    s.Below dir (s.join dir path) :=
  ⟨_, List.splitOnP_ne_nil _ _, h.belowBy dir⟩

/-- A piece between some of the separators that has none of the others in it is a piece between
all of them. -/
theorem mem_splitOnP_of_finer {α : Type*} {p q : α → Bool} (finer : ∀ c, p c = true → q c = true)
    {text piece : List α} (mem : piece ∈ text.splitOnP p) (bare : ∀ c ∈ piece, q c = false) :
    piece ∈ text.splitOnP q := by
  -- The first piece and the others are followed apart: a character goes to the first one.
  have hpieces : ∀ text : List α, ∃ first rest first' rest',
      text.splitOnP p = first :: rest ∧ text.splitOnP q = first' :: rest' ∧
        ((∀ c ∈ first, q c = false) → first = first') ∧
        ∀ piece ∈ rest, (∀ c ∈ piece, q c = false) → piece ∈ rest' := by
    intro text
    induction text with
    | nil => exact ⟨[], [], [], [], by simp, by simp, by simp, by simp⟩
    | cons c text ih =>
        obtain ⟨first, rest, first', rest', hp, hq, hfirst, hrest⟩ := ih
        rw [List.splitOnP_cons_eq_if_modifyHead, List.splitOnP_cons_eq_if_modifyHead, hp, hq]
        by_cases hqc : q c = true
        · rw [if_pos hqc]
          by_cases hpc : p c = true
          · rw [if_pos hpc]
            refine ⟨[], first :: rest, [], first' :: rest', rfl, rfl, by simp, ?_⟩
            intro piece mem bare
            rcases List.mem_cons.mp mem with rfl | mem
            · rw [hfirst bare]
              exact List.mem_cons_self
            · exact List.mem_cons_of_mem _ (hrest piece mem bare)
          · rw [if_neg hpc]
            refine ⟨c :: first, rest, [], first' :: rest', rfl, rfl, ?_, ?_⟩
            · intro bare
              rw [bare c List.mem_cons_self] at hqc
              cases hqc
            · intro piece mem bare
              exact List.mem_cons_of_mem _ (hrest piece mem bare)
        · have hpc : p c ≠ true := fun h => hqc (finer c h)
          rw [if_neg hqc, if_neg hpc]
          refine ⟨c :: first, rest, c :: first', rest', rfl, rfl, ?_, hrest⟩
          intro bare
          rw [hfirst fun d mem => bare d (List.mem_cons_of_mem _ mem)]
  obtain ⟨first, rest, first', rest', hp, hq, hfirst, hrest⟩ := hpieces text
  rw [hp] at mem
  rw [hq]
  rcases List.mem_cons.mp mem with rfl | mem
  · rw [hfirst bare]
    exact List.mem_cons_self
  · exact List.mem_cons_of_mem _ (hrest piece mem bare)

omit [DecidableEq α] in
/-- Fewer separators leave a path of names only one. -/
theorem PlainPath.coarser {s' : PathSyntax α} {path : List α} (h : s.PlainPath path)
    (hdot : s'.dot = s.dot) (hsep : ∀ c, s'.isSep c = true → s.isSep c = true) :
    s'.PlainPath path := by
  constructor
  · have := h.relative
    cases path with
    | nil => rfl
    | cons c path =>
        have hc : s.isSep c = false := by simpa using this
        simpa using mt (hsep c) (by simp [hc])
  · intro piece mem
    have hdots : s.isSep s.dot = false := s.isSep_dot
    rw [hdot]
    refine ⟨?_, ?_, ?_⟩
    · rintro rfl
      exact (h.names _ (mem_splitOnP_of_finer hsep mem (by simp))).1 rfl
    · rintro rfl
      exact (h.names _ (mem_splitOnP_of_finer hsep mem (by simp [hdots]))).2.1 rfl
    · rintro rfl
      exact (h.names _ (mem_splitOnP_of_finer hsep mem (by simp [hdots]))).2.2 rfl

/-- Trimming changes no component. -/
theorem components_trimBack (back : List α) :
    s.components (s.trimBack back).reverse = s.components back.reverse := by
  induction back with
  | nil => rfl
  | cons c back ih =>
      cases back with
      | nil => rfl
      | cons d before =>
          rw [trimBack]
          split_ifs with htrim
          · rw [ih]
            by_cases hc : s.isSep c = true
            · rw [List.reverse_cons (a := c), components_append_singleton hc (by simp)]
            · simp only [hc, Bool.false_or, Bool.and_eq_true, decide_eq_true_eq] at htrim
              obtain ⟨rfl, hd⟩ := htrim
              have hdot : ([s.dot].splitOnP s.isSep).filterMap s.component = [] := by
                rw [List.splitOnP_eq_singleton (by simpa using s.isSep_dot)]
                simp [component]
              have htext : (s.dot :: d :: before).reverse = before.reverse ++ d :: [s.dot] := by
                simp
              rw [htext, components_append_sep hd, hdot, List.append_nil, List.reverse_cons]
          · rfl

/-- What trimming leaves ends with a component, unless it is a single character. -/
theorem trimBack_end (back : List α) {c d : α} {before : List α}
    (h : s.trimBack back = c :: d :: before) :
    s.isSep c = false ∧ ¬ (c = s.dot ∧ s.isSep d = true) := by
  induction back with
  | nil => cases h
  | cons b back ih =>
      cases back with
      | nil => cases h
      | cons b' before' =>
          rw [trimBack] at h
          split_ifs at h with htrim
          · exact ih h
          · obtain ⟨rfl, hrest⟩ := List.cons.inj h
            obtain ⟨rfl, rfl⟩ := List.cons.inj hrest
            simpa using htrim

/-- A text without separators that is not empty is one component. -/
theorem components_single {text : List α} (hne : text ≠ []) (h : ∀ c ∈ text, s.isSep c = false) :
    ∃ c, s.components text = [c] := by
  have hpieces : text.splitOnP s.isSep = [text] :=
    List.splitOnP_eq_singleton (by simpa using h)
  have hhead : text.head?.any s.isSep = false := by
    cases text with
    | nil => rfl
    | cons c text => simpa using h c (by simp)
  rw [components, hpieces, hhead, if_neg Bool.false_ne_true]
  by_cases hdot : text = [s.dot]
  · exact ⟨.curDir, by simp [hdot, component]⟩
  · rw [List.head?_cons, if_neg (by simpa using hdot)]
    by_cases hdots : text = [s.dot, s.dot]
    · exact ⟨.parentDir, by simp [hdots, component]⟩
    · exact ⟨.normal text, by simp [component, hne, hdot, hdots]⟩

/-- The parent lacks the last component. -/
theorem components_parent {path dir : List α} (h : s.parent path = some dir) :
    ∃ c, s.components path = s.components dir ++ [c] := by
  have hpath : s.components (s.trimBack path.reverse).reverse = s.components path := by
    rw [components_trimBack, List.reverse_reverse]
  have hend : ∀ {c d before}, s.trimBack path.reverse = c :: d :: before →
      s.isSep c = false ∧ ¬ (c = s.dot ∧ s.isSep d = true) := trimBack_end path.reverse
  simp only [parent, Option.ite_none_left_eq_some, Option.some.injEq] at h
  obtain ⟨hback, rfl⟩ := h
  rw [components_trimBack, ← hpath]
  generalize s.trimBack path.reverse = back at hback hend
  rw [not_or, not_and] at hback
  -- The last name ends where, read backwards, the first separator stands.
  obtain ⟨name, rest, rfl, hname, hrest⟩ : ∃ name rest, back = name ++ rest ∧
      (∀ c ∈ name, s.isSep c = false) ∧ back.dropWhile (fun c => !s.isSep c) = rest := by
    refine ⟨back.takeWhile fun c => !s.isSep c, _,
      List.takeWhile_append_dropWhile.symm, fun c mem => ?_, rfl⟩
    simpa using List.mem_takeWhile_imp mem
  rw [hrest]
  cases rest with
  | nil =>
      rw [List.append_nil] at hback ⊢
      exact components_single (by simpa using hback.1) (by simpa using hname)
  | cons d before =>
      have hd : s.isSep d = true := by
        have := List.head?_dropWhile_not (fun c => !s.isSep c) (name ++ d :: before)
        rw [hrest] at this
        simpa using this
      have hlast : ∃ c, s.component name.reverse = some c := by
        cases name with
        | nil =>
            cases before with
            | nil => exact absurd hd (by simpa using hback.2)
            | cons e before => exact absurd hd (by simp [(hend rfl).1])
        | cons c name =>
            have hdot : c :: name ≠ [s.dot] := by
              intro heq
              obtain ⟨rfl, rfl⟩ := List.cons.inj heq
              exact (hend rfl).2 ⟨rfl, hd⟩
            by_cases hdots : (c :: name).reverse = [s.dot, s.dot]
            · exact ⟨.parentDir, by simp [component, hdots]⟩
            · refine ⟨.normal (c :: name).reverse, component_name ⟨by simp, ?_, hdots⟩⟩
              intro heq
              exact hdot (by simpa using congrArg List.reverse heq)
      obtain ⟨c, hc⟩ := hlast
      refine ⟨c, ?_⟩
      have hsingle : name.reverse.splitOnP s.isSep = [name.reverse] :=
        List.splitOnP_eq_singleton (by simpa using hname)
      rw [List.reverse_append, List.reverse_cons, List.append_assoc, List.singleton_append,
        components_append_sep hd, hsingle]
      simp [hc]

/-- **The parent of a path of names only, joined to a directory, is in the directory.** -/
theorem PlainPath.parent_within {path dir above : List α} (h : s.PlainPath path)
    (hparent : s.parent (s.join dir path) = some above) : s.Within dir above := by
  obtain ⟨c, hc⟩ := components_parent hparent
  have hnames : s.components above =
      s.components dir ++ (path.splitOnP s.isSep).dropLast.map .normal := by
    have hne : (path.splitOnP s.isSep).map (Component.normal (ν := List α)) ≠ [] := by
      simp
    have := congrArg List.dropLast hc
    rw [h.components_join, List.dropLast_concat, List.dropLast_append_of_ne_nil hne] at this
    rw [← this, List.map_dropLast]
  exact ⟨_, by rw [BelowBy, hnames, normalize_append_names]⟩

end PathSyntax

/-- `/` separates. -/
def unix : PathSyntax Char where
  isSep c := c = '/'
  sep := '/'
  dot := '.'
  isSep_sep := by decide
  isSep_dot := by decide

/-- `/` and `\` separate. -/
def windows : PathSyntax Char where
  isSep c := c = '/' || c = '\\'
  sep := '\\'
  dot := '.'
  isSep_sep := by decide
  isSep_dot := by decide

end LexicalPath
