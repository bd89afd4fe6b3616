import Libdeno.Snapshot.Table

/-!
# Libdeno.Snapshot.CargoArgs

`parse_cargo_args` of `snapshot_compat.py`, which reads the command the wrapper is to run: the
manifest and the target it names, and the options that decide the dependency graph. An option
has its value in the next argument or behind a `=`. The flag for the manifest is assigned by
every `--manifest-path`, so a later one hides the mismatch of an earlier one; the flag for the
target is not, because a second `--target` is refused.
-/

namespace Libdeno.Snapshot

/-! ### The loop -/

/-- What the second loop keeps. -/
structure Selection where
  graphFlags : List Str
  seenManifest : Bool
  seenTarget : Bool
  targetCount : Nat

/-- Nothing was seen before the second loop. -/
def Selection.initial (graphFlags : List Str) : Selection where
  graphFlags
  seenManifest := false
  seenTarget := false
  targetCount := 0

/-- The options of `parse_cargo_args` whose value is the next argument and is looked at. -/
def valueOptions : List Str :=
  [lit "--manifest-path", lit "--target", lit "--features", lit "-F", lit "--config"]

/-- Those whose value is skipped. -/
def selectorOptions : List Str := [lit "--test", lit "--example", lit "--bin", lit "--bench"]

/-- The options without a value that choose features. -/
def featureFlags : List Str := [lit "--all-features", lit "--no-default-features"]

/-- The options without a value that choose how the lock file is used. -/
def lockFlags : List Str := [lit "--locked", lit "--offline", lit "--frozen"]

/-- The other options without a value, and those. -/
def buildFlags : List Str :=
  lockFlags ++ [lit "--release", lit "--verbose", lit "-v", lit "-vv", lit "--lib",
    lit "--all-targets", lit "--no-run", lit "--no-fail-fast", lit "--doc"]

/-- `arg.split("=", 1)[1]`. -/
def afterEquals (arg : Str) : Str := (arg.dropWhile (· ≠ '=')).drop 1

section Parse

variable (resolve : Str → Str) (repr : Str → String) (manifest target : Str)

/-- `seen_manifest = …`, of a value. -/
def Selection.setManifest (st : Selection) (value : Str) : Selection :=
  { st with seenManifest := resolve value = resolve manifest }

/-- The three lines that look at the value of a `--target`. -/
def Selection.setTarget (st : Selection) (value : Str) : Except String Selection :=
  if 1 < st.targetCount + 1 then .error "Cargo command contains duplicate --target options"
  else .ok { st with targetCount := st.targetCount + 1, seenTarget := value = target }

/-- `graph_flags.extend`. -/
def Selection.extend (st : Selection) (flags : List Str) : Selection :=
  { st with graphFlags := st.graphFlags ++ flags }

/-- The loop over the options before the subcommand: the flags, and the arguments left. -/
def parseConfig (graphFlags : List Str) : List Str → Except String (List Str × List Str)
  | [] => .ok (graphFlags, [])
  | arg :: rest =>
      if arg = lit "--config" then
        match rest with
        | [] => .error "missing value after --config"
        | value :: rest => parseConfig (graphFlags ++ [lit "--config", value]) rest
      else if (lit "--config=").isPrefixOf arg then parseConfig (graphFlags ++ [arg]) rest
      else .ok (graphFlags, arg :: rest)

/-- The loop over the options behind it. -/
def parseOptions (st : Selection) : List Str → Except String Selection
  | [] => .ok st
  | arg :: rest =>
      if arg ∈ valueOptions then
        match rest with
        | [] => .error s!"missing value after {String.ofList arg}"
        | value :: rest =>
            if arg = lit "--manifest-path" then
              parseOptions (st.setManifest resolve manifest value) rest
            else if arg = lit "--target" then
              match st.setTarget target value with
              | .error e => .error e
              | .ok st => parseOptions st rest
            else if arg ∈ [lit "--features", lit "-F"] then
              parseOptions (st.extend [lit "--features", value]) rest
            else parseOptions (st.extend [lit "--config", value]) rest
      else if arg ∈ selectorOptions then
        match rest with
        | [] => .error s!"missing value after {String.ofList arg}"
        | _ :: rest => parseOptions st rest
      else if (lit "--manifest-path=").isPrefixOf arg then
        parseOptions (st.setManifest resolve manifest (afterEquals arg)) rest
      else if (lit "--target=").isPrefixOf arg then
        match st.setTarget target (afterEquals arg) with
        | .error e => .error e
        | .ok st => parseOptions st rest
      else if (lit "--config=").isPrefixOf arg then parseOptions (st.extend [arg]) rest
      else if (lit "--features=").isPrefixOf arg then
        parseOptions (st.extend [lit "--features", afterEquals arg]) rest
      else if arg ∈ featureFlags then parseOptions (st.extend [arg]) rest
      else if arg ∈ buildFlags then
        parseOptions (if arg ∈ lockFlags then st.extend [arg] else st) rest
      else if ['-'].isPrefixOf arg then
        .error s!"unsupported Cargo build flag {String.ofList arg}; wrapper refuses to guess metadata flags"
      else .error s!"unsupported Cargo build argument {repr arg}"

/-- The subcommands the wrapper supports. -/
def subcommands : List Str := [lit "build", lit "test"]

/-- `parse_cargo_args`. -/
def parseCargoArgs (command : List Str) : Except String (List Str) :=
  match parseConfig [] (command.drop 1) with
  | .error e => .error e
  | .ok (graphFlags, rest) =>
      match rest with
      | [] => .error "wrapper supports `cargo build` and `cargo test` only"
      | subcommand :: rest =>
          if subcommand ∉ subcommands then
            .error "wrapper supports `cargo build` and `cargo test` only"
          else
            match parseOptions resolve repr manifest target (.initial graphFlags) rest with
            | .error e => .error e
            | .ok st =>
                if st.seenManifest && st.seenTarget then .ok st.graphFlags
                else
                  .error "Cargo command must include matching --manifest-path and explicit --target"

end Parse

/-! ### The options of a command -/

/-- The names of the options that may have their value behind a `=`. -/
def joinedOptions : List Str :=
  [lit "--manifest-path", lit "--target", lit "--config", lit "--features"]

/-- An option of a command, with its value. -/
inductive CargoOption where
  | separate (name : Str) (known : name ∈ valueOptions ++ selectorOptions) (value : Str)
  | joined (name : Str) (known : name ∈ joinedOptions) (value : Str)
  | plain (arg : Str) (known : arg ∈ featureFlags ++ buildFlags)
  deriving DecidableEq

namespace CargoOption

/-- The arguments it is written as. -/
def render : CargoOption → List Str
  | separate name _ value => [name, value]
  | joined name _ value => [name ++ '=' :: value]
  | plain arg _ => [arg]

/-- The value it gives an option. -/
def valueOf (option : Str) : CargoOption → Option Str
  | separate name _ value | joined name _ value => if name = option then some value else none
  | plain _ _ => none

/-- The flags that decide the dependency graph. -/
def graphFlags : CargoOption → List Str
  | separate name _ value =>
      if name ∈ [lit "--features", lit "-F"] then [lit "--features", value]
      else if name = lit "--config" then [lit "--config", value]
      else []
  | joined name _ value =>
      if name = lit "--features" then [lit "--features", value]
      else if name = lit "--config" then [lit "--config" ++ '=' :: value]
      else []
  | plain arg _ => if arg ∈ featureFlags ++ lockFlags then [arg] else []

end CargoOption

/-- An option before the subcommand. -/
inductive ConfigOption where
  | separate (value : Str)
  | joined (value : Str)
  deriving DecidableEq

/-- The arguments it is written as, which are the flags it stands for. -/
def ConfigOption.render : ConfigOption → List Str
  | separate value => [lit "--config", value]
  | joined value => [lit "--config" ++ '=' :: value]

/-- A command the wrapper can read. -/
structure CargoCommand where
  program : Str
  configs : List ConfigOption
  subcommand : Str
  options : List CargoOption
  supported : subcommand ∈ subcommands

namespace CargoCommand

variable (c : CargoCommand)

def render : List Str :=
  c.program :: (c.configs.flatMap ConfigOption.render ++
    c.subcommand :: c.options.flatMap CargoOption.render)

/-- The values of its `--manifest-path` options. -/
def manifests : List Str := c.options.filterMap (CargoOption.valueOf (lit "--manifest-path"))

/-- The values of its `--target` options. -/
def targets : List Str := c.options.filterMap (CargoOption.valueOf (lit "--target"))

/-- Its configuration, feature and lock-mode options. -/
def graphFlags : List Str :=
  c.configs.flatMap ConfigOption.render ++ c.options.flatMap CargoOption.graphFlags

end CargoCommand

/-! ### One option -/

section Options

variable (resolve : Str → Str) (repr : Str → String) (manifest target : Str)

/-- What an option does. -/
def CargoOption.act (o : CargoOption) (st : Selection) : Except String Selection :=
  match o.valueOf (lit "--manifest-path") with
  | some value => .ok (st.setManifest resolve manifest value)
  | none =>
      match o.valueOf (lit "--target") with
      | some value => st.setTarget target value
      | none => .ok (st.extend o.graphFlags)

@[simp] theorem Selection.extend_nil (st : Selection) : st.extend [] = st := by
  simp [Selection.extend]

/-- An option that is for the build alone does nothing. -/
theorem parseOptions_of_silent {o : CargoOption} {st : Selection} {rest : List Str}
    (silent : o.act resolve manifest target st = .ok (st.extend []))
    (h : parseOptions resolve repr manifest target st (o.render ++ rest) =
      parseOptions resolve repr manifest target st rest) :
    parseOptions resolve repr manifest target st (o.render ++ rest) =
      match o.act resolve manifest target st with
      | .error e => .error e
      | .ok st => parseOptions resolve repr manifest target st rest := by
  rw [h, silent, Selection.extend_nil]

/-- The loop reads an option, however it is spelled, and goes on behind it. -/
theorem parseOptions_option (o : CargoOption) (st : Selection) (rest : List Str) :
    parseOptions resolve repr manifest target st (o.render ++ rest) =
      match o.act resolve manifest target st with
      | .error e => .error e
      | .ok st => parseOptions resolve repr manifest target st rest := by
  cases o with
  | separate name known value =>
      fin_cases known
      -- The options whose value is looked at, then those whose value is skipped.
      iterate 5 exact rfl
      iterate 4 exact parseOptions_of_silent _ _ _ _ rfl rfl
  | joined name known value => fin_cases known <;> cases rest <;> rfl
  | plain arg known =>
      fin_cases known
      -- The flags for the features and the lock file, then those for the build alone.
      iterate 5 (cases rest <;> rfl)
      iterate 9 exact parseOptions_of_silent _ _ _ _ rfl (by cases rest <;> rfl)

variable {resolve repr manifest target}

/-- An argument with a value behind a `=`. -/
theorem joined_of_prefix {name arg : Str} (known : name ∈ joinedOptions)
    (h : (name ++ ['=']).isPrefixOf arg = true) (rest : List Str) :
    ∃ (o : CargoOption) (rest' : List Str), arg :: rest = o.render ++ rest' := by
  obtain ⟨value, rfl⟩ := List.isPrefixOf_iff_prefix.mp h
  exact ⟨.joined name known value, rest, by simp [CargoOption.render]⟩

/-- Where the loop does not fail, it stands before an option. -/
theorem parseOptions_head {arg : Str} {rest : List Str} {st st' : Selection}
    (h : parseOptions resolve repr manifest target st (arg :: rest) = .ok st') :
    ∃ (o : CargoOption) (rest' : List Str), arg :: rest = o.render ++ rest' := by
  by_cases hvalue : arg ∈ valueOptions ++ selectorOptions
  · cases rest with
    | cons value rest => exact ⟨.separate arg hvalue value, rest, rfl⟩
    | nil =>
        rw [parseOptions.eq_def] at h
        rcases List.mem_append.mp hvalue with hvalue | hselector
        · simp [hvalue] at h
        · by_cases hvalue : arg ∈ valueOptions <;> simp [hvalue, hselector] at h
  · rw [List.mem_append, not_or] at hvalue
    by_cases hplain : arg ∈ featureFlags ++ buildFlags
    · exact ⟨.plain arg hplain, rest, rfl⟩
    · rw [List.mem_append, not_or] at hplain
      rw [parseOptions.eq_def] at h
      simp only [hvalue.1, hvalue.2, hplain.1, hplain.2, if_false] at h
      split_ifs at h with hmanifest htarget hconfig hfeatures
      · exact joined_of_prefix (by decide : lit "--manifest-path" ∈ joinedOptions) hmanifest rest
      · exact joined_of_prefix (by decide : lit "--target" ∈ joinedOptions) htarget rest
      · exact joined_of_prefix (by decide : lit "--config" ∈ joinedOptions) hconfig rest
      · exact joined_of_prefix (by decide : lit "--features" ∈ joinedOptions) hfeatures rest

/-- What the loop accepts are options. -/
theorem parseOptions_sound {args : List Str} {st st' : Selection}
    (h : parseOptions resolve repr manifest target st args = .ok st') :
    ∃ options : List CargoOption, args = options.flatMap CargoOption.render := by
  induction hlength : args.length using Nat.strong_induction_on generalizing args st with
  | _ length ih =>
      cases args with
      | nil => exact ⟨[], rfl⟩
      | cons arg rest =>
          obtain ⟨o, rest', heq⟩ := parseOptions_head h
          rw [heq, parseOptions_option] at h
          have hshort : rest'.length < length := by
            have hone : 0 < o.render.length := by cases o <;> simp [CargoOption.render]
            rw [← hlength, heq, List.length_append]
            omega
          split at h
          · cases h
          · obtain ⟨options, hoptions⟩ := ih _ hshort h rfl
            exact ⟨o :: options, by rw [heq, hoptions]; rfl⟩

/-! ### All options -/

/-- The values that options give one option. -/
def valuesOf (option : Str) (options : List CargoOption) : List Str :=
  options.filterMap (CargoOption.valueOf option)

variable (resolve manifest target)

/-- What options do, one after the other. -/
def actAll (st : Selection) : List CargoOption → Except String Selection
  | [] => .ok st
  | o :: options =>
      match o.act resolve manifest target st with
      | .error e => .error e
      | .ok st => actAll st options

/-- What the loop keeps of options: the flags of all, and the last manifest and target. -/
def Selection.after (st : Selection) (options : List CargoOption) : Selection where
  graphFlags := st.graphFlags ++ options.flatMap CargoOption.graphFlags
  seenManifest := (valuesOf (lit "--manifest-path") options).getLast?.elim st.seenManifest
    fun value => resolve value = resolve manifest
  seenTarget := (valuesOf (lit "--target") options).getLast?.elim st.seenTarget
    fun value => value = target
  targetCount := st.targetCount + (valuesOf (lit "--target") options).length

variable {resolve manifest target}

theorem parseOptions_eq_actAll (st : Selection) (options : List CargoOption) :
    parseOptions resolve repr manifest target st (options.flatMap CargoOption.render) =
      actAll resolve manifest target st options := by
  induction options generalizing st with
  | nil => rfl
  | cons o options ih =>
      rw [List.flatMap_cons, parseOptions_option, actAll]
      cases o.act resolve manifest target st with
      | error e => rfl
      | ok st => exact ih st

/-- A manifest is no target and no flag. -/
theorem CargoOption.of_manifest {o : CargoOption} {value : Str}
    (h : o.valueOf (lit "--manifest-path") = some value) :
    o.valueOf (lit "--target") = none ∧ o.graphFlags = [] := by
  cases o with
  | plain arg known => cases h
  | separate name known value' =>
      simp only [valueOf, Option.ite_none_right_eq_some] at h
      obtain ⟨rfl, -⟩ := h
      exact ⟨rfl, rfl⟩
  | joined name known value' =>
      simp only [valueOf, Option.ite_none_right_eq_some] at h
      obtain ⟨rfl, -⟩ := h
      exact ⟨rfl, rfl⟩

/-- A target is no flag. -/
theorem CargoOption.of_target {o : CargoOption} {value : Str}
    (h : o.valueOf (lit "--target") = some value) : o.graphFlags = [] := by
  cases o with
  | plain arg known => cases h
  | separate name known value' =>
      simp only [valueOf, Option.ite_none_right_eq_some] at h
      obtain ⟨rfl, -⟩ := h
      rfl
  | joined name known value' =>
      simp only [valueOf, Option.ite_none_right_eq_some] at h
      obtain ⟨rfl, -⟩ := h
      rfl

theorem getLast?_cons_elim {α β : Type*} (x : α) (xs : List α) (b : β) (f : α → β) :
    (x :: xs).getLast?.elim b f = xs.getLast?.elim (f x) f := by
  rw [List.getLast?_cons]
  cases xs.getLast? <;> rfl

/-- Options are accepted unless there is a second target. -/
theorem actAll_ok_iff {st st' : Selection} {options : List CargoOption}
    (count : st.targetCount ≤ 1) :
    actAll resolve manifest target st options = .ok st' ↔
      st.targetCount + (valuesOf (lit "--target") options).length ≤ 1 ∧
        st' = st.after resolve manifest target options := by
  induction options generalizing st with
  | nil => simp [actAll, Selection.after, valuesOf, count, eq_comm]
  | cons o options ih =>
      rw [actAll, CargoOption.act]
      cases hmanifest : o.valueOf (lit "--manifest-path") with
      | some value =>
          obtain ⟨htarget, hflags⟩ := CargoOption.of_manifest hmanifest
          have hafter : (st.setManifest resolve manifest value).after resolve manifest target
              options = st.after resolve manifest target (o :: options) := by
            simp [Selection.after, Selection.setManifest, valuesOf, hmanifest, htarget, hflags,
              getLast?_cons_elim]
          simp only
          rw [ih (by exact count), hafter]
          simp [Selection.setManifest, valuesOf, htarget]
      | none =>
          cases htarget : o.valueOf (lit "--target") with
          | none =>
              have hafter : (st.extend o.graphFlags).after resolve manifest target options =
                  st.after resolve manifest target (o :: options) := by
                simp [Selection.after, Selection.extend, valuesOf, hmanifest, htarget]
              simp only
              rw [ih (by exact count), hafter]
              simp [Selection.extend, valuesOf, htarget]
          | some value =>
              have hflags := CargoOption.of_target htarget
              simp only [Selection.setTarget]
              split_ifs with hsecond
              · -- A target was seen before this one.
                have htwice : ¬ st.targetCount +
                    (valuesOf (lit "--target") (o :: options)).length ≤ 1 := by
                  simp [valuesOf, htarget]
                  omega
                simp [htwice]
              · have hafter : Selection.after resolve manifest target
                    { st with targetCount := st.targetCount + 1, seenTarget := value = target }
                    options = st.after resolve manifest target (o :: options) := by
                  simp [Selection.after, valuesOf, hmanifest, htarget, hflags,
                    getLast?_cons_elim]
                  omega
                simp only
                rw [ih (by simpa using hsecond), hafter]
                simp [valuesOf, htarget]
                omega

end Options

/-! ### The whole command -/

/-- The names of options have no `=` in them. -/
theorem equals_notMem_option : ∀ name ∈ valueOptions ++ selectorOptions ++ joinedOptions ++
    (featureFlags ++ buildFlags), '=' ∉ name := by decide

theorem notMem_plain_of_option : ∀ name ∈ valueOptions ++ selectorOptions,
    name ∉ featureFlags ++ buildFlags := by decide

/-- An argument with a value is no name. -/
theorem joined_ne_option {name value option : Str} (known : option ∈ valueOptions ++
    selectorOptions ++ joinedOptions ++ (featureFlags ++ buildFlags)) :
    name ++ '=' :: value ≠ option := by
  rintro rfl
  exact equals_notMem_option _ known (by simp)

/-- The first `=` separates a name from its value. -/
theorem equals_append_inj {name name' value value' : Str} (hname : '=' ∉ name)
    (hname' : '=' ∉ name') (h : name ++ '=' :: value = name' ++ '=' :: value') :
    name = name' ∧ value = value' := by
  have hvalue : afterEquals (name ++ '=' :: value) = afterEquals (name' ++ '=' :: value') := by
    rw [h]
  have hafter : ∀ {name value : Str}, '=' ∉ name → afterEquals (name ++ '=' :: value) = value := by
    intro name value hnot
    induction name with
    | nil => rfl
    | cons c name ih =>
        rw [List.mem_cons, not_or] at hnot
        simpa [afterEquals, Ne.symm hnot.1] using ih hnot.2
  rw [hafter hname, hafter hname'] at hvalue
  subst hvalue
  exact ⟨List.append_cancel_right h, rfl⟩

/-- Written options can be told apart. -/
theorem CargoOption.render_append_inj {o o' : CargoOption} {rest rest' : List Str}
    (h : o.render ++ rest = o'.render ++ rest') : o = o' ∧ rest = rest' := by
  cases o with
  | separate name known value =>
      cases o' with
      | separate name' known' value' =>
          simp only [render, List.cons_append, List.nil_append, List.cons.injEq] at h
          obtain ⟨rfl, rfl, rfl⟩ := h
          exact ⟨rfl, rfl⟩
      | joined name' known' value' =>
          simp only [render, List.cons_append, List.nil_append, List.cons.injEq] at h
          exact absurd h.1.symm (joined_ne_option (List.mem_append_left _
            (List.mem_append_left _ known)))
      | plain arg known' =>
          simp only [render, List.cons_append, List.nil_append, List.cons.injEq] at h
          exact absurd (h.1 ▸ known') (notMem_plain_of_option name known)
  | joined name known value =>
      cases o' with
      | separate name' known' value' =>
          simp only [render, List.cons_append, List.nil_append, List.cons.injEq] at h
          exact absurd h.1 (joined_ne_option (List.mem_append_left _
            (List.mem_append_left _ known')))
      | joined name' known' value' =>
          simp only [render, List.cons_append, List.nil_append, List.cons.injEq] at h
          obtain ⟨hjoined, rfl⟩ := h
          have hname := equals_notMem_option name
            (List.mem_append_left _ (List.mem_append_right _ known))
          have hname' := equals_notMem_option name'
            (List.mem_append_left _ (List.mem_append_right _ known'))
          obtain ⟨rfl, rfl⟩ := equals_append_inj hname hname' hjoined
          exact ⟨rfl, rfl⟩
      | plain arg known' =>
          simp only [render, List.cons_append, List.nil_append, List.cons.injEq] at h
          exact absurd h.1 (joined_ne_option (List.mem_append_right _ known'))
  | plain arg known =>
      cases o' with
      | separate name' known' value' =>
          simp only [render, List.cons_append, List.nil_append, List.cons.injEq] at h
          exact absurd (h.1 ▸ known) (notMem_plain_of_option name' known')
      | joined name' known' value' =>
          simp only [render, List.cons_append, List.nil_append, List.cons.injEq] at h
          exact absurd h.1.symm (joined_ne_option (List.mem_append_right _ known))
      | plain arg' known' =>
          simp only [render, List.cons_append, List.nil_append, List.cons.injEq] at h
          obtain ⟨rfl, rfl⟩ := h
          exact ⟨rfl, rfl⟩

theorem render_options_injective : ∀ {options options' : List CargoOption},
    options.flatMap CargoOption.render = options'.flatMap CargoOption.render →
      options = options' := by
  have hne : ∀ (o : CargoOption) (rest : List Str), o.render ++ rest ≠ [] := by
    intro o rest
    cases o <;> simp [CargoOption.render]
  intro options
  induction options with
  | nil =>
      intro options' h
      cases options' with
      | nil => rfl
      | cons o' options' => exact absurd h.symm (hne o' _)
  | cons o options ih =>
      intro options' h
      cases options' with
      | nil => exact absurd h (hne o _)
      | cons o' options' =>
          obtain ⟨rfl, hrest⟩ := CargoOption.render_append_inj h
          rw [ih hrest]

/-- The first loop reads a configuration option, and goes on behind it. -/
theorem parseConfig_option (graphFlags : List Str) (config : ConfigOption) (rest : List Str) :
    parseConfig graphFlags (config.render ++ rest) =
      parseConfig (graphFlags ++ config.render) rest := by
  cases config with
  | separate value => rfl
  | joined value => cases rest <;> rfl

/-- It stops before the subcommand. -/
theorem parseConfig_eq (graphFlags : List Str) (configs : List ConfigOption) {subcommand : Str}
    (supported : subcommand ∈ subcommands) (rest : List Str) :
    parseConfig graphFlags (configs.flatMap ConfigOption.render ++ subcommand :: rest) =
      .ok (graphFlags ++ configs.flatMap ConfigOption.render, subcommand :: rest) := by
  induction configs generalizing graphFlags with
  | nil =>
      rw [List.flatMap_nil, List.append_nil, List.nil_append]
      fin_cases supported <;> cases rest <;> rfl
  | cons config configs ih =>
      rw [List.flatMap_cons, List.append_assoc, parseConfig_option, ih, List.append_assoc]

/-- What it reads are configuration options. -/
theorem parseConfig_sound {args graphFlags flags rest : List Str}
    (h : parseConfig graphFlags args = .ok (flags, rest)) :
    ∃ configs : List ConfigOption, args = configs.flatMap ConfigOption.render ++ rest ∧
      flags = graphFlags ++ configs.flatMap ConfigOption.render := by
  fun_induction parseConfig graphFlags args with
  | case1 graphFlags =>
      obtain ⟨rfl, rfl⟩ := Prod.mk.inj (Except.ok.inj h)
      exact ⟨[], rfl, by simp⟩
  | case2 graphFlags => cases h
  | case3 graphFlags value args ih =>
      obtain ⟨configs, rfl, rfl⟩ := ih h
      exact ⟨.separate value :: configs, by simp [ConfigOption.render], by
        simp [ConfigOption.render]⟩
  | case4 graphFlags arg args hname hprefix ih =>
      obtain ⟨configs, rfl, rfl⟩ := ih h
      obtain ⟨value, rfl⟩ := List.isPrefixOf_iff_prefix.mp hprefix
      have harg : lit "--config=" ++ value = lit "--config" ++ '=' :: value := rfl
      exact ⟨.joined value :: configs, by simp [ConfigOption.render, harg], by
        simp [ConfigOption.render, harg]⟩
  | case5 graphFlags arg args hname hprefix =>
      obtain ⟨rfl, rfl⟩ := Prod.mk.inj (Except.ok.inj h)
      exact ⟨[], rfl, by simp⟩

section Command

variable {resolve : Str → Str} {repr : Str → String} {manifest target : Str}

/-- The last `--manifest-path` names the manifest, and there is one `--target`, the given. -/
def Accepts (resolve : Str → Str) (manifest target : Str) (c : CargoCommand) : Prop :=
  (∃ value ∈ c.manifests.getLast?, resolve value = resolve manifest) ∧ c.targets = [target]

/-- What the last check makes of the options of a command. -/
theorem after_initial (c : CargoCommand) (graphFlags : List Str) :
    (valuesOf (lit "--target") c.options).length ≤ 1 ∧
      (((Selection.initial graphFlags).after resolve manifest target c.options).seenManifest &&
        ((Selection.initial graphFlags).after resolve manifest target c.options).seenTarget) =
          true ↔ Accepts resolve manifest target c := by
  simp only [Selection.after, Selection.initial, Bool.and_eq_true, Accepts]
  have hmanifest : (valuesOf (lit "--manifest-path") c.options).getLast?.elim false
      (fun value => resolve value = resolve manifest) = true ↔
        ∃ value ∈ c.manifests.getLast?, resolve value = resolve manifest := by
    rw [CargoCommand.manifests, valuesOf]
    generalize (c.options.filterMap _).getLast? = last
    cases last <;> simp
  have htarget : (valuesOf (lit "--target") c.options).length ≤ 1 ∧
      (valuesOf (lit "--target") c.options).getLast?.elim false
        (fun value => value = target) = true ↔ c.targets = [target] := by
    rw [CargoCommand.targets, valuesOf]
    generalize c.options.filterMap _ = values
    rcases values with _ | ⟨first, _ | ⟨second, values⟩⟩ <;> simp
  rw [hmanifest, ← htarget]
  exact and_left_comm

/-- **The commands the parser accepts, and the flags it returns.** -/
theorem parseCargoArgs_ok_iff {command flags : List Str} :
    parseCargoArgs resolve repr manifest target command = .ok flags ↔
      ∃ c : CargoCommand, command = c.render ∧ Accepts resolve manifest target c ∧
        flags = c.graphFlags := by
  constructor
  · intro h
    rw [parseCargoArgs] at h
    split at h
    · cases h
    · rename_i graphFlags rest hconfig
      cases rest with
      | nil => cases h
      | cons subcommand rest =>
          simp only at h
          split_ifs at h with hsupported
          split at h
          · cases h
          · rename_i st hparse
            split_ifs at h with hseen
            obtain ⟨options, rfl⟩ := parseOptions_sound hparse
            obtain ⟨configs, hargs, rfl⟩ := parseConfig_sound hconfig
            cases command with
            | nil => simp at hargs
            | cons program args =>
                -- What the three parsers have read are the parts of a command.
                let c : CargoCommand :=
                  ⟨program, configs, subcommand, options, hsupported⟩
                rw [parseOptions_eq_actAll, actAll_ok_iff (by exact Nat.zero_le 1)] at hparse
                obtain ⟨hcount, rfl⟩ := hparse
                refine ⟨c, ?_, (after_initial c _).mp ⟨?_, hseen⟩, ?_⟩
                · rw [CargoCommand.render, ← show args = _ from hargs]
                · simpa [Selection.initial] using hcount
                · exact (Except.ok.inj h).symm
  · rintro ⟨c, rfl, accepts, rfl⟩
    obtain ⟨hcount, hseen⟩ := (after_initial c (c.configs.flatMap ConfigOption.render)).mpr accepts
    have hparse : parseOptions resolve repr manifest target
        (.initial (c.configs.flatMap ConfigOption.render))
        (c.options.flatMap CargoOption.render) =
          .ok ((Selection.initial (c.configs.flatMap ConfigOption.render)).after resolve manifest
            target c.options) := by
      rw [parseOptions_eq_actAll, actAll_ok_iff (by exact Nat.zero_le 1)]
      exact ⟨by simpa [Selection.initial] using hcount, rfl⟩
    have hdrop : c.render.drop 1 = c.configs.flatMap ConfigOption.render ++
        c.subcommand :: c.options.flatMap CargoOption.render := rfl
    have hconfig := parseConfig_eq [] c.configs c.supported
      (c.options.flatMap CargoOption.render)
    rw [List.nil_append] at hconfig
    rw [parseCargoArgs, hdrop, hconfig]
    simp only [not_not.mpr c.supported, if_false, hparse]
    rw [if_pos hseen]
    rfl

/-- A written command tells its options. -/
theorem CargoCommand.render_inj {c c' : CargoCommand} (h : c.render = c'.render) :
    c.options = c'.options := by
  have hargs := (List.cons.inj h).2
  have hleft := parseConfig_eq [] c.configs c.supported (c.options.flatMap CargoOption.render)
  have hright := parseConfig_eq [] c'.configs c'.supported (c'.options.flatMap CargoOption.render)
  rw [hargs, hright] at hleft
  exact (render_options_injective (List.cons.inj (Prod.mk.inj (Except.ok.inj hleft)).2).2).symm

/-- Every `--manifest-path` names the manifest, of which there is one, and there is one
`--target`, the given. -/
def Selects (resolve : Str → Str) (manifest target : Str) (c : CargoCommand) : Prop :=
  c.manifests ≠ [] ∧ (∀ value ∈ c.manifests, resolve value = resolve manifest) ∧
    c.targets = [target]

/-- The last `--manifest-path` names the manifest, an earlier one does not, and the target is
right. -/
def HidesMismatch (resolve : Str → Str) (manifest target : Str) (c : CargoCommand) : Prop :=
  (∃ value ∈ c.manifests.getLast?, resolve value = resolve manifest) ∧
    (∃ value ∈ c.manifests, resolve value ≠ resolve manifest) ∧ c.targets = [target]

/-- What is accepted but does not select hides a mismatch. -/
theorem accepts_iff {c : CargoCommand} : Accepts resolve manifest target c ↔
    Selects resolve manifest target c ∨ HidesMismatch resolve manifest target c := by
  constructor
  · rintro ⟨⟨value, hlast, hvalue⟩, htarget⟩
    by_cases hall : ∀ value ∈ c.manifests, resolve value = resolve manifest
    · refine .inl ⟨?_, hall, htarget⟩
      rintro hnil
      rw [hnil] at hlast
      cases hlast
    · push Not at hall
      exact .inr ⟨⟨value, hlast, hvalue⟩, hall, htarget⟩
  · rintro (⟨hne, hall, htarget⟩ | ⟨hlast, -, htarget⟩)
    · refine ⟨⟨c.manifests.getLast hne, List.getLast?_eq_some_getLast hne, ?_⟩, htarget⟩
      exact hall _ (List.getLast_mem hne)
    · exact ⟨hlast, htarget⟩

/-- **The parser accepts what selects the given graph, and returns its flags, exactly for the
commands that do not hide a mismatch behind a later `--manifest-path`.** -/
theorem parseCargoArgs_selects_iff (resolve : Str → Str) (repr : Str → String)
    (manifest target : Str) (command : List Str) :
    (∀ flags, parseCargoArgs resolve repr manifest target command = .ok flags ↔
      ∃ c : CargoCommand, command = c.render ∧ Selects resolve manifest target c ∧
        flags = c.graphFlags) ↔
    ¬ ∃ c : CargoCommand, command = c.render ∧ HidesMismatch resolve manifest target c := by
  constructor
  · rintro h ⟨c, rfl, hides⟩
    have hparse : parseCargoArgs resolve repr manifest target c.render = .ok c.graphFlags :=
      parseCargoArgs_ok_iff.mpr ⟨c, rfl, accepts_iff.mpr (.inr hides), rfl⟩
    obtain ⟨c', hrender, selects, -⟩ := (h c.graphFlags).mp hparse
    obtain ⟨value, mem, hvalue⟩ := hides.2.1
    refine hvalue (selects.2.1 value ?_)
    rw [CargoCommand.manifests, ← CargoCommand.render_inj hrender]
    exact mem
  · intro hnone flags
    rw [parseCargoArgs_ok_iff]
    refine exists_congr fun c => and_congr_right fun hrender => and_congr_left fun _ => ?_
    rw [accepts_iff]
    exact or_iff_left fun hides => hnone ⟨c, hrender, hides⟩

end Command

/-- `cargo build --manifest-path other/Cargo.toml --manifest-path Cargo.toml --target t`. -/
def hidingCommand : CargoCommand where
  program := lit "cargo"
  configs := []
  subcommand := lit "build"
  options := [.separate (lit "--manifest-path") (by decide) (lit "other/Cargo.toml"),
    .separate (lit "--manifest-path") (by decide) (lit "Cargo.toml"),
    .separate (lit "--target") (by decide) (lit "t")]
  supported := by decide

/-- The mismatch of the first manifest is hidden by the second one. -/
theorem hidingCommand_accepted :
    ¬ ∀ flags, parseCargoArgs id (fun _ => "") (lit "Cargo.toml") (lit "t")
        hidingCommand.render = .ok flags ↔
      ∃ c : CargoCommand, hidingCommand.render = c.render ∧
        Selects id (lit "Cargo.toml") (lit "t") c ∧ flags = c.graphFlags := by
  intro h
  obtain ⟨c, hrender, selects, -⟩ := (h []).mp rfl
  have hmanifests : c.manifests = [lit "other/Cargo.toml", lit "Cargo.toml"] := by
    rw [CargoCommand.manifests, ← CargoCommand.render_inj hrender]
    rfl
  have hother := selects.2.1 (lit "other/Cargo.toml") (by simp [hmanifests])
  exact absurd hother (by decide)

end Libdeno.Snapshot
