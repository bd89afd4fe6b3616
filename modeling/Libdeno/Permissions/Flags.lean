import Libdeno.Library.Grants
import Libdeno.Snapshot.Table

/-!
# Libdeno.Permissions.Flags

`build_permissions` of `permissions.rs`: the `--allow-*` arguments fill one slot for each
capability, in which an empty list stands for everything.

What a slot means is a grant: nothing, some descriptors, or everything. Each argument that is
accepted joins its own grant to the slot it names (`slotGrant_extend`), so a list of arguments
is a fold in a semilattice, and the order of the arguments does not matter. A valueless flag
is the greatest grant, and a value that is filtered out never looks like one, because an
argument without any other is rejected.
-/

namespace Libdeno.Permissions

open Lines Grants
open Snapshot (Str lit)

/-! ### The arguments -/

inductive Capability
  | read
  | write
  | env
  | net
  | run
  | ffi
  | sys
  | «import»
  deriving Repr, DecidableEq

/-- The flag of a capability. -/
def Capability.flag : Capability → Str
  | .read => lit "--allow-read"
  | .write => lit "--allow-write"
  | .env => lit "--allow-env"
  | .net => lit "--allow-net"
  | .run => lit "--allow-run"
  | .ffi => lit "--allow-ffi"
  | .sys => lit "--allow-sys"
  | .import => lit "--allow-import"

/-- The arms of the match on the flag. -/
def capabilityOf (flag : Str) : Option Capability :=
  [Capability.read, .write, .env, .net, .run, .ffi, .sys, .import].find? fun c => c.flag = flag

/-- `arg.split_once('=')`, or the whole argument. -/
def splitFlag (arg : Str) : Str × Option Str :=
  match splitOnce '=' arg with
  | some (flag, value) => (flag, some value)
  | none => (arg, none)

/-- The two spellings of the allow-all flag. -/
def isAllowAll (flag : Str) : Bool := flag = lit "-A" || flag = lit "--allow-all"

inductive LibdenoError
  | permission (message : String)
  | configuration (message : String)
  deriving Repr, DecidableEq

/-- The non-empty pieces of a value. -/
def valueSpecs (value : Str) : List Str := (value.splitOn ',').filter (· ≠ [])

/-- The values of an argument; none at all for a flag without one. -/
def argSpecs (flag : Str) : Option Str → Except LibdenoError (List Str)
  | some value =>
      if valueSpecs value = [] then
        .error (.permission s!"flag `{String.ofList flag}=` requires at least one value")
      else .ok (valueSpecs value)
  | none => .ok []

/-! ### Paths -/

/-- The path rules of the platform, for the working directory of the options. -/
structure PathRules where
  windows : Bool
  isAbsolute : Str → Bool
  /-- `cwd.join(path).into_os_string().into_string()` -/
  joinCwd : Str → Option Str

/-- Paths are bytes, and a relative one is appended. -/
def PathRules.unix (cwd : List UInt8) : PathRules where
  windows := false
  isAbsolute path := path.head? = some '/'
  joinCwd path :=
    if path.head? = some '/' then some path
    else if cwd = [] || cwd.getLast? = some 47 then decodeUtf8 (cwd ++ encodeUtf8 path)
    else decodeUtf8 (cwd ++ 47 :: encodeUtf8 path)

section

variable (rules : PathRules)

/-- `is_run_path` -/
def isRunPath (spec : Str) : Bool :=
  rules.isAbsolute spec || spec = lit "." || spec = lit ".." || '/' ∈ spec ||
    rules.windows && '\\' ∈ spec

/-- One of `paths`. -/
def resolvePath (spec : Str) : Except LibdenoError Str :=
  if rules.isAbsolute spec then .ok spec
  else
    match rules.joinCwd spec with
    | some path => .ok path
    | none => .error (.permission "filesystem permission path is not valid UTF-8")

/-- One of `run_paths`. -/
def resolveRunPath (spec : Str) : Except LibdenoError Str :=
  if !isRunPath rules spec then .ok spec
  else
    match rules.joinCwd spec with
    | some path => .ok path
    | none => .error (.permission "run permission path is not valid UTF-8")

/-- What a value of a capability stands for. -/
def resolve : Capability → Str → Except LibdenoError Str
  | .read | .write | .ffi => resolvePath rules
  | .run => resolveRunPath rules
  | .env | .net | .sys | .import => .ok

/-! ### The loop -/

/-- `PermissionsOptions`: the `allow_*` slots, and what else is set. -/
structure PermissionsOptions where
  allow : Capability → Option (List Str)
  denyEnv : List Str
  prompt : Bool

/-- The `extend` of the loop. -/
def extend (slot : Option (List Str)) (specs : List Str) : Option (List Str) :=
  if specs = [] then some []
  else
    match slot with
    | some existing => if existing = [] then some existing else some (existing ++ specs)
    | none => some specs

/-- A slot is extended. -/
def PermissionsOptions.grant (opts : PermissionsOptions) (c : Capability) (specs : List Str) :
    PermissionsOptions :=
  { opts with allow := Function.update opts.allow c (extend (opts.allow c) specs) }

/-- The variables of the loop. -/
structure LoopState where
  opts : PermissionsOptions
  hasAllow : Bool

/-- How the loop goes on behind an argument: with the next one, or with `allow_all`. -/
inductive Flow
  | next (state : LoopState)
  | allowAll

/-- The body of the loop. -/
def onArgument (state : LoopState) (arg : Str) : Except LibdenoError Flow :=
  let (flag, value) := splitFlag arg
  if isAllowAll flag then
    if value.isSome then
      .error (.permission s!"flag `{String.ofList flag}` does not take a value")
    else .ok .allowAll
  else
    match argSpecs flag value with
    | .error e => .error e
    | .ok specs =>
        match capabilityOf flag with
        | none => .error (.permission s!"unknown permission flag: {String.ofList flag}")
        | some c =>
            match specs.mapM (resolve rules c) with
            | .error e => .error e
            | .ok specs => .ok (.next ⟨state.opts.grant c specs, true⟩)

/-- The loop over the arguments. -/
def argumentLoop (state : LoopState) : List Str → Except LibdenoError Flow
  | [] => .ok (.next state)
  | arg :: args =>
      match onArgument rules state arg with
      | .error e => .error e
      | .ok .allowAll => .ok .allowAll
      | .ok (.next state) => argumentLoop state args

/-- `CONTROL_ENV_VARS` -/
def controlEnvVars : List Str :=
  [lit "LIBDENO_HOST_EXE", lit "LIBDENO_CHILD_MODE", lit "LIBDENO_CHILD_TOKEN",
    lit "LIBDENO_SUPERVISOR_MODE", lit "LIBDENO_SUPERVISOR_ENDPOINT",
    lit "LIBDENO_SUPERVISOR_TOKEN", lit "LIBDENO_ANALYSIS_CACHE_ENTRIES",
    lit "LIBDENO_MAX_TARBALL_DECOMPRESSED_BYTES", lit "DENO_DIR", lit "DENO_NO_PACKAGE_JSON",
    lit "JSR_URL", lit "NPM_CONFIG_REGISTRY", lit "npm_config_registry",
    lit "NPM_CONFIG_REPLACE_REGISTRY_HOST", lit "npm_config_replace_registry_host"]

/-- The variables before the loop. -/
def LoopState.initial (prompt : Bool) : LoopState where
  opts := { allow := fun _ => none, denyEnv := controlEnvVars, prompt := prompt }
  hasAllow := false

/-- `PermissionsContainer` -/
inductive PermissionsContainer (Permissions : Type)
  | allowAll
  | new (permissions : Permissions)

/-- `build_permissions`; `fromOptions` is `Permissions::from_options`. -/
def buildPermissions {Permissions : Type}
    (fromOptions : PermissionsOptions → Except String Permissions) (args : List Str)
    (allowAll prompt : Bool) : Except LibdenoError (PermissionsContainer Permissions) :=
  if allowAll then .ok .allowAll
  else
    match argumentLoop rules (.initial prompt) args with
    | .error e => .error e
    | .ok .allowAll => .ok .allowAll
    | .ok (.next state) =>
        if !state.hasAllow && !prompt then
          .error (.configuration "no permission flags provided; since v0.2.0 an empty list grants nothing (it was allow-all before v0.2.0). Pass --allow-* capability flags, set LibdenoOptions.prompt = true for interactive prompting, or set LibdenoOptions.allow_all_permissions = true to grant all capabilities")
        else
          match fromOptions state.opts with
          | .error e => .error (.permission e)
          | .ok permissions => .ok (.new permissions)

/-! ### What the arguments say -/

/-- The argument is the flag of the capability, with a value or without. -/
def Names (c : Capability) (arg : Str) : Prop := (splitFlag arg).1 = c.flag

instance (c : Capability) (arg : Str) : Decidable (Names c arg) :=
  inferInstanceAs (Decidable (_ = _))

/-- What the argument lists for the capability: its non-empty values, resolved. -/
def Lists (c : Capability) (arg spec : Str) : Prop :=
  ∃ value piece, arg = c.flag ++ '=' :: value ∧ piece ∈ value.splitOn ',' ∧ piece ≠ [] ∧
    resolve rules c piece = .ok spec

/-- The argument is an allow-all flag, with a value or without. -/
def isAllowAllArg (arg : Str) : Bool := isAllowAll (splitFlag arg).1

/-- The argument is a flag with an `=` and no value behind it. -/
def hasEmptyValue (arg : Str) : Bool :=
  match (splitFlag arg).2 with
  | some value => valueSpecs value = []
  | none => false

/-- The flag is none that there is. -/
def isUnknown (arg : Str) : Bool := !isAllowAllArg arg && (capabilityOf (splitFlag arg).1).isNone

/-- The argument alone is a reason to reject the list: an allow-all flag with a value, an
empty value, an unknown flag, or a path that cannot be resolved. -/
def isInvalid (arg : Str) : Bool :=
  if isAllowAllArg arg then (splitFlag arg).2.isSome
  else
    hasEmptyValue arg ||
      match capabilityOf (splitFlag arg).1, (splitFlag arg).2 with
      | none, _ => true
      | some c, some value => (valueSpecs value).any fun piece => !(resolve rules c piece).isOk
      | some _, none => false

end

/-! ### Grants -/

/-- What a list of resolved values grants. -/
def specsGrant (specs : List Str) : Grant Str := if specs = [] then ⊤ else only {s | s ∈ specs}

/-- What a slot means. -/
def slotGrant : Option (List Str) → Grant Str
  | none => ⊥
  | some specs => specsGrant specs

@[simp] theorem specsGrant_eq_top {specs : List Str} : specsGrant specs = ⊤ ↔ specs = [] := by
  rw [specsGrant]
  split_ifs with h <;> simp [h]

@[simp] theorem specsGrant_ne_bot (specs : List Str) : specsGrant specs ≠ ⊥ := by
  rw [specsGrant]
  split_ifs <;> simp

theorem permits_specsGrant {specs : List Str} (h : specs ≠ []) (s : Str) :
    Permits (specsGrant specs) s ↔ s ∈ specs := by
  rw [specsGrant, if_neg h, permits_only]
  rfl

/-- Extending a slot joins the grants. -/
theorem slotGrant_extend (slot : Option (List Str)) (specs : List Str) :
    slotGrant (extend slot specs) = slotGrant slot ⊔ specsGrant specs := by
  by_cases hspecs : specs = []
  · simp [extend, hspecs, slotGrant, specsGrant]
  · cases slot with
    | none => simp [extend, hspecs, slotGrant]
    | some existing =>
        by_cases hexisting : existing = []
        · simp [extend, hspecs, hexisting, slotGrant, specsGrant]
        · have hboth : existing ++ specs ≠ [] := by simp [hspecs]
          have hunion : ({s | s ∈ existing ++ specs} : Set Str) =
              {s | s ∈ existing} ∪ {s | s ∈ specs} := by
            ext s
            simp
          simp only [extend, if_neg hspecs, if_neg hexisting, slotGrant, specsGrant,
            if_neg hboth, hunion, only_sup]

/-- What one argument grants a capability. -/
def argGrant (rules : PathRules) (c : Capability) (arg : Str) : Grant Str :=
  if Names c arg then
    match (splitFlag arg).2 with
    | none => ⊤
    | some _ => only {s | Lists rules c arg s}
  else ⊥

/-! ### One argument -/

@[simp] theorem capabilityOf_flag (c : Capability) : capabilityOf c.flag = some c := by
  cases c <;> decide

theorem flag_of_capabilityOf {flag : Str} {c : Capability} (h : capabilityOf flag = some c) :
    c.flag = flag := by
  have hfound := List.find?_some h
  exact of_decide_eq_true hfound

theorem flag_injective {c c' : Capability} (h : c.flag = c'.flag) : c = c' := by
  have heq := congrArg capabilityOf h
  rw [capabilityOf_flag, capabilityOf_flag] at heq
  exact Option.some.inj heq

theorem equals_notMem_flag (c : Capability) : '=' ∉ c.flag := by
  cases c <;> decide

theorem splitFlag_value {flag arg value : Str} (h : splitFlag arg = (flag, some value)) :
    arg = flag ++ '=' :: value := by
  rw [splitFlag] at h
  split at h
  · rename_i flag' value' hsplit
    obtain ⟨rfl, hvalue⟩ := Prod.mk.inj h
    rw [← Option.some.inj hvalue]
    exact (splitOnce_some hsplit).1
  · cases h

theorem splitFlag_bare {flag arg : Str} (h : splitFlag arg = (flag, none)) : arg = flag := by
  rw [splitFlag] at h
  split at h
  · cases h
  · exact congrArg Prod.fst h

@[simp] theorem splitFlag_flag_value (c : Capability) (value : Str) :
    splitFlag (c.flag ++ '=' :: value) = (c.flag, some value) := by
  rw [splitFlag, splitOnce_append (equals_notMem_flag c)]

@[simp] theorem splitFlag_flag (c : Capability) : splitFlag c.flag = (c.flag, none) := by
  rw [splitFlag, splitOnce_of_notMem (equals_notMem_flag c)]

variable {rules : PathRules} {c : Capability} {arg : Str} {args : List Str}
  {state : LoopState}

/-- The values are resolved if each of them is, one after the other. -/
theorem resolveAll_ok {specs : List Str}
    (h : specs.any (fun piece => !(resolve rules c piece).isOk) = false) :
    ∃ found, specs.mapM (resolve rules c) = .ok found ∧ (found = [] ↔ specs = []) ∧
      ∀ s, s ∈ found ↔ ∃ piece ∈ specs, resolve rules c piece = .ok s := by
  induction specs with
  | nil => exact ⟨[], rfl, by simp, by simp⟩
  | cons piece specs ih =>
      rw [List.any_cons, Bool.or_eq_false_iff] at h
      obtain ⟨hpiece, hspecs⟩ := h
      obtain ⟨found, hfound, -, hmem⟩ := ih hspecs
      cases hresolve : resolve rules c piece with
      | error e =>
          rw [hresolve] at hpiece
          cases hpiece
      | ok path =>
          refine ⟨path :: found, ?_, by simp, fun s => ?_⟩
          · rw [List.mapM_cons, hresolve, hfound]
            rfl
          · simp only [List.mem_cons, hmem, exists_eq_or_imp, hresolve, Except.ok.injEq]
            rw [eq_comm]

theorem resolveAll_error {specs : List Str}
    (h : specs.any (fun piece => !(resolve rules c piece).isOk) = true) :
    ∃ e, specs.mapM (resolve rules c) = .error e := by
  induction specs with
  | nil => cases h
  | cons piece specs ih =>
      rw [List.mapM_cons]
      cases hresolve : resolve rules c piece with
      | error e => exact ⟨e, rfl⟩
      | ok path =>
          rw [List.any_cons, hresolve, Bool.or_eq_true] at h
          obtain ⟨e, he⟩ := ih (h.resolve_left (by simp [Except.isOk, Except.toBool]))
          exact ⟨e, by rw [he]; rfl⟩

/-- An argument that is invalid ends the loop with an error. -/
theorem onArgument_invalid (state : LoopState) (h : isInvalid rules arg = true) :
    ∃ e, onArgument rules state arg = .error e := by
  cases hsplit : splitFlag arg with
  | mk flag value =>
      simp only [isInvalid, isAllowAllArg, hasEmptyValue, hsplit] at h
      simp only [onArgument, hsplit]
      by_cases hall : isAllowAll flag = true
      · rw [if_pos hall] at h ⊢
        exact ⟨_, if_pos h⟩
      · rw [if_neg hall] at h ⊢
        cases value with
        | none =>
            -- a flag without a value can only be unknown
            cases hc : capabilityOf flag with
            | none => exact ⟨_, rfl⟩
            | some c => simp [hc] at h
        | some value =>
            by_cases hempty : valueSpecs value = []
            · simp only [argSpecs, if_pos hempty]
              exact ⟨_, rfl⟩
            · simp only [argSpecs, if_neg hempty]
              cases hc : capabilityOf flag with
              | none => exact ⟨_, rfl⟩
              | some c =>
                  simp only [hc, hempty, decide_false, Bool.false_or] at h
                  obtain ⟨e, he⟩ := resolveAll_error h
                  exact ⟨e, by simp only [he]⟩

/-- An allow-all flag without a value ends it with everything. -/
theorem onArgument_allowAll (state : LoopState) (h : isInvalid rules arg = false)
    (hall : isAllowAllArg arg = true) :
    onArgument rules state arg = .ok .allowAll := by
  rw [isInvalid, if_pos hall] at h
  rw [isAllowAllArg] at hall
  simp only [onArgument, hall, h, if_true]
  rfl

/-- A slot that is granted more, and the others. -/
theorem slotGrant_grant (opts : PermissionsOptions) (c c' : Capability) (specs : List Str) :
    slotGrant ((opts.grant c specs).allow c') =
      slotGrant (opts.allow c') ⊔ if c = c' then specsGrant specs else ⊥ := by
  by_cases h : c = c'
  · subst h
    simp only [PermissionsOptions.grant, Function.update_self, slotGrant_extend, if_true]
  · simp only [PermissionsOptions.grant, Function.update_of_ne (Ne.symm h), if_neg h, sup_bot_eq]

/-- What an argument grants is what its values are resolved to. -/
theorem argGrant_eq {c' : Capability} {value : Option Str} {specs found : List Str}
    (hsplit : splitFlag arg = (c.flag, value)) (hspecs : argSpecs c.flag value = .ok specs)
    (hempty : found = [] ↔ specs = [])
    (hfound : ∀ s, s ∈ found ↔ ∃ piece ∈ specs, resolve rules c piece = .ok s) :
    argGrant rules c' arg = if c = c' then specsGrant found else ⊥ := by
  have hnames : Names c' arg ↔ c.flag = c'.flag := by rw [Names, hsplit]
  by_cases hc : c = c'
  · subst hc
    rw [argGrant, if_pos (hnames.mpr rfl), if_pos rfl, hsplit]
    cases value with
    | none =>
        cases hspecs
        exact (specsGrant_eq_top.mpr (hempty.mpr rfl)).symm
    | some value =>
        rw [argSpecs] at hspecs
        split_ifs at hspecs with hnone
        cases hspecs
        rw [specsGrant, if_neg (mt hempty.mp hnone)]
        have harg := splitFlag_value hsplit
        refine congrArg only (Set.ext fun s => ?_)
        refine Iff.trans ?_ (hfound s).symm
        constructor
        · rintro ⟨value', piece, harg', hpiece, hne, hresolve⟩
          have hvalue : value' = value := by
            rw [harg', splitFlag_flag_value] at hsplit
            exact Option.some.inj (congrArg Prod.snd hsplit)
          exact ⟨piece, List.mem_filter.mpr ⟨hvalue ▸ hpiece, by simpa using hne⟩, hresolve⟩
        · rintro ⟨piece, hpiece, hresolve⟩
          obtain ⟨hpiece, hne⟩ := List.mem_filter.mp hpiece
          exact ⟨value, piece, harg, hpiece, by simpa using hne, hresolve⟩
  · rw [argGrant, if_neg fun h => hc (flag_injective (hnames.mp h)), if_neg hc]

/-- Any other argument joins its grants to the slots. -/
theorem onArgument_next (state : LoopState) (h : isInvalid rules arg = false)
    (hall : isAllowAllArg arg = false) :
    ∃ state', onArgument rules state arg = .ok (.next state') ∧ state'.hasAllow = true ∧
      state'.opts.prompt = state.opts.prompt ∧ state'.opts.denyEnv = state.opts.denyEnv ∧
      ∀ c, slotGrant (state'.opts.allow c) =
        slotGrant (state.opts.allow c) ⊔ argGrant rules c arg := by
  rw [isInvalid, hall, if_neg Bool.false_ne_true, Bool.or_eq_false_iff, hasEmptyValue] at h
  obtain ⟨hvalue, hresolve⟩ := h
  rw [isAllowAllArg] at hall
  cases hsplit : splitFlag arg with
  | mk flag value =>
      rw [hsplit] at hvalue hresolve hall
      cases hc : capabilityOf flag with
      | none =>
          simp only [hc] at hresolve
          cases hresolve
      | some c =>
          obtain rfl := flag_of_capabilityOf hc
          obtain ⟨specs, found, hspecs, hrun, hempty, hmem⟩ :
              ∃ specs found, argSpecs c.flag value = .ok specs ∧
                specs.mapM (resolve rules c) = .ok found ∧ (found = [] ↔ specs = []) ∧
                ∀ s, s ∈ found ↔ ∃ piece ∈ specs, resolve rules c piece = .ok s := by
            cases value with
            | none => exact ⟨[], [], rfl, rfl, Iff.rfl, by simp⟩
            | some value =>
                simp only [hc] at hresolve
                obtain ⟨found, hrun, hfound⟩ := resolveAll_ok hresolve
                exact ⟨_, found, if_neg (of_decide_eq_false hvalue), hrun, hfound⟩
          refine ⟨⟨state.opts.grant c found, true⟩, ?_, rfl, rfl, rfl, fun c' => ?_⟩
          · simp only [onArgument, hsplit, hall, hspecs, hc, hrun]
            rfl
          · rw [slotGrant_grant, argGrant_eq hsplit hspecs hempty hmem]

/-! ### The list -/

/-- The argument ends the loop. -/
def ends (rules : PathRules) (arg : Str) : Bool := isInvalid rules arg || isAllowAllArg arg

/-- The loop on arguments none of which ends it. -/
theorem argumentLoop_next (state : LoopState) (h : ∀ arg ∈ args, ends rules arg = false) :
    ∃ state', argumentLoop rules state args = .ok (.next state') ∧
      (state'.hasAllow = true ↔ state.hasAllow = true ∨ args ≠ []) ∧
      ∀ c, slotGrant (state'.opts.allow c) =
        slotGrant (state.opts.allow c) ⊔ join (args.map (argGrant rules c)) := by
  induction args generalizing state with
  | nil => exact ⟨state, rfl, by simp, by simp⟩
  | cons arg args ih =>
      obtain ⟨hinvalid, hall⟩ := Bool.or_eq_false_iff.mp (h arg List.mem_cons_self)
      obtain ⟨next, hnext, hhas, -, -, hgrant⟩ := onArgument_next state hinvalid hall
      obtain ⟨last, hlast, hhas', hgrants⟩ :=
        ih next fun arg mem => h arg (List.mem_cons_of_mem _ mem)
      refine ⟨last, ?_, by simp [hhas', hhas], fun c => ?_⟩
      · rw [argumentLoop, hnext]
        exact hlast
      · rw [hgrants, hgrant, List.map_cons, join_cons, sup_assoc]

/-- The loop up to the first argument that ends it. -/
theorem argumentLoop_ends (state : LoopState) (h : args.find? (ends rules) = some arg) :
    (isInvalid rules arg = true → ∃ e, argumentLoop rules state args = .error e) ∧
      (isInvalid rules arg = false → argumentLoop rules state args = .ok .allowAll) := by
  induction args generalizing state with
  | nil => cases h
  | cons first args ih =>
      rw [argumentLoop]
      by_cases hends : ends rules first = true
      · rw [List.find?_cons_of_pos hends] at h
        obtain rfl := Option.some.inj h
        constructor
        · intro hinvalid
          obtain ⟨e, he⟩ := onArgument_invalid state hinvalid
          exact ⟨e, by rw [he]⟩
        · intro hvalid
          rw [ends, hvalid, Bool.false_or] at hends
          rw [onArgument_allowAll state hvalid hends]
      · rw [List.find?_cons_of_neg hends] at h
        obtain ⟨hinvalid, hall⟩ := Bool.or_eq_false_iff.mp (Bool.not_eq_true _ ▸ hends)
        obtain ⟨next, hnext, -⟩ := onArgument_next state hinvalid hall
        rw [hnext]
        exact ih next h

/-! ### The slots -/

theorem slotGrant_eq_bot {slot : Option (List Str)} : slotGrant slot = ⊥ ↔ slot = none := by
  cases slot with
  | none => simp [slotGrant]
  | some specs => simp [slotGrant]

theorem slotGrant_eq_top {slot : Option (List Str)} : slotGrant slot = ⊤ ↔ slot = some [] := by
  cases slot with
  | none => simp [slotGrant]
  | some specs => simp [slotGrant]

theorem argGrant_eq_bot : argGrant rules c arg = ⊥ ↔ ¬ Names c arg := by
  rw [argGrant]
  split_ifs with hnames
  · cases (splitFlag arg).2 <;> simp [hnames]
  · simp [hnames]

/-- Everything is granted by the bare flag. -/
theorem argGrant_eq_top : argGrant rules c arg = ⊤ ↔ arg = c.flag := by
  cases hsplit : splitFlag arg with
  | mk flag value =>
      have hnames : Names c arg ↔ flag = c.flag := by rw [Names, hsplit]
      rw [argGrant, hsplit]
      by_cases hflag : flag = c.flag
      · rw [if_pos (hnames.mpr hflag)]
        cases value with
        | none => simp [splitFlag_bare hsplit, hflag]
        | some value =>
            have hne : arg ≠ c.flag := by
              rintro rfl
              rw [splitFlag_flag] at hsplit
              cases hsplit
            simp [hne]
      · rw [if_neg (mt hnames.mp hflag)]
        have hne : arg ≠ c.flag := by
          rintro rfl
          rw [splitFlag_flag] at hsplit
          exact hflag (congrArg Prod.fst hsplit).symm
        simp [hne]

/-- A value is granted by the arguments that list it. -/
theorem permits_argGrant (hbare : arg ≠ c.flag) {s : Str} :
    Permits (argGrant rules c arg) s ↔ Lists rules c arg s := by
  rw [argGrant]
  split_ifs with hnames
  · rw [Names] at hnames
    cases hsplit : splitFlag arg with
    | mk flag value =>
        cases value with
        | none =>
            rw [hsplit] at hnames
            exact absurd ((splitFlag_bare hsplit).trans hnames) hbare
        | some value => exact permits_only _ _
  · refine ⟨fun h => absurd h (permits_bot s), ?_⟩
    rintro ⟨value, piece, rfl, -⟩
    exact absurd (congrArg Prod.fst (splitFlag_flag_value c value)) hnames

/-- The slots an accepted list leaves: absent, everything, or the values listed. -/
theorem slots_of_grants (h : ∀ c, slotGrant (state.opts.allow c) =
      join (args.map (argGrant rules c))) (c : Capability) :
    (state.opts.allow c = none ↔ ∀ arg ∈ args, ¬ Names c arg) ∧
      (state.opts.allow c = some [] ↔ c.flag ∈ args) ∧
      ∀ specs, state.opts.allow c = some specs → specs ≠ [] →
        ∀ s, s ∈ specs ↔ ∃ arg ∈ args, Lists rules c arg s := by
  have hglobal : state.opts.allow c = some [] ↔ c.flag ∈ args := by
    rw [← slotGrant_eq_top, h, join_eq_top, List.mem_map]
    simp only [argGrant_eq_top, exists_eq_right]
  refine ⟨?_, hglobal, fun specs hslot hne s => ?_⟩
  · rw [← slotGrant_eq_bot, h, join_eq_bot, List.forall_mem_map]
    simp only [argGrant_eq_bot]
  · have hbare : ∀ arg ∈ args, arg ≠ c.flag := by
      rintro arg mem rfl
      rw [hglobal.mpr mem] at hslot
      exact hne (Option.some.inj hslot).symm
    rw [← permits_specsGrant hne]
    have hgrant := h c
    rw [hslot, slotGrant] at hgrant
    rw [hgrant, permits_join]
    constructor
    · rintro ⟨g, mem, hpermits⟩
      obtain ⟨arg, harg, rfl⟩ := List.mem_map.mp mem
      exact ⟨arg, harg, (permits_argGrant (hbare arg harg)).mp hpermits⟩
    · rintro ⟨arg, harg, hlists⟩
      exact ⟨_, List.mem_map_of_mem harg, (permits_argGrant (hbare arg harg)).mpr hlists⟩

/-! ### The arguments as a whole -/

/-- An unknown flag, or an empty value, is a reason to reject. -/
theorem isInvalid_of (hall : isAllowAllArg arg = false)
    (h : isUnknown arg = true ∨ hasEmptyValue arg = true) : isInvalid rules arg = true := by
  rw [isInvalid, hall, if_neg Bool.false_ne_true, Bool.or_eq_true]
  rcases h with hunknown | hempty
  · rw [isUnknown, Bool.and_eq_true, Option.isNone_iff_eq_none] at hunknown
    rw [hunknown.2]
    exact .inr rfl
  · exact .inl hempty

/-- An argument is the bare allow-all flag where it is valid and that flag. -/
theorem allowAll_valid (hall : isAllowAllArg arg = true) :
    isInvalid rules arg = false ↔ arg = lit "-A" ∨ arg = lit "--allow-all" := by
  rw [isInvalid, if_pos hall]
  rw [isAllowAllArg] at hall
  have hbare : splitFlag (lit "-A") = (lit "-A", none) ∧
      splitFlag (lit "--allow-all") = (lit "--allow-all", none) := by decide
  cases hsplit : splitFlag arg with
  | mk flag value =>
      rw [hsplit, isAllowAll, Bool.or_eq_true, decide_eq_true_eq, decide_eq_true_eq] at hall
      cases value with
      | none => simpa [splitFlag_bare hsplit] using hall
      | some value =>
          have hne : arg ≠ lit "-A" ∧ arg ≠ lit "--allow-all" := by
            constructor
            · rintro rfl
              cases hbare.1.symm.trans hsplit
            · rintro rfl
              cases hbare.2.symm.trans hsplit
          simp [hne]

/-- A list is rejected, or grants everything, with its first argument that ends the loop. -/
theorem buildPermissions_ends {Permissions : Type}
    (fromOptions : PermissionsOptions → Except String Permissions) (prompt : Bool)
    (h : args.find? (ends rules) = some arg) :
    (isInvalid rules arg = true →
      ∃ e, buildPermissions rules fromOptions args false prompt = .error e) ∧
    (isInvalid rules arg = false →
      buildPermissions rules fromOptions args false prompt = .ok .allowAll) := by
  obtain ⟨hinvalid, hvalid⟩ := argumentLoop_ends (.initial prompt) h
  rw [buildPermissions, if_neg Bool.false_ne_true]
  constructor
  · intro hi
    obtain ⟨e, he⟩ := hinvalid hi
    exact ⟨e, by rw [he]⟩
  · intro hv
    rw [hvalid hv]

/-- **Permission flags are a fold to a lattice.** Of a list without an allow-all flag that the
loop accepts, each slot is absent, everything, or exactly the resolved values, whatever the
order; with an unknown flag or an empty value the list is rejected. A list with an allow-all
flag grants everything if its first argument that is invalid or an allow-all flag is one
without a value, and is rejected otherwise. -/
theorem permission_flags {Permissions : Type} (rules : PathRules)
    (fromOptions : PermissionsOptions → Except String Permissions) (args : List Str)
    (prompt : Bool) :
    ((∀ arg ∈ args, isAllowAllArg arg = false) →
      (∀ state, argumentLoop rules (.initial prompt) args = .ok (.next state) →
        (∀ c, (state.opts.allow c = none ↔ ∀ arg ∈ args, ¬ Names c arg) ∧
          (state.opts.allow c = some [] ↔ c.flag ∈ args) ∧
          ∀ specs, state.opts.allow c = some specs → specs ≠ [] →
            ∀ s, s ∈ specs ↔ ∃ arg ∈ args, Lists rules c arg s) ∧
        ∀ args', args.Perm args' → ∃ state',
          argumentLoop rules (.initial prompt) args' = .ok (.next state') ∧
          ∀ c, slotGrant (state'.opts.allow c) = slotGrant (state.opts.allow c)) ∧
      ((∃ arg ∈ args, isUnknown arg = true ∨ hasEmptyValue arg = true) →
        ∃ e, buildPermissions rules fromOptions args false prompt = .error e)) ∧
    ((∃ arg ∈ args, isAllowAllArg arg = true) →
      (buildPermissions rules fromOptions args false prompt = .ok .allowAll ↔
        ∃ arg, args.find? (ends rules) = some arg ∧
          (arg = lit "-A" ∨ arg = lit "--allow-all")) ∧
      (buildPermissions rules fromOptions args false prompt = .ok .allowAll ∨
        ∃ e, buildPermissions rules fromOptions args false prompt = .error e)) := by
  refine ⟨fun hno => ⟨fun state hrun => ?_, fun hbad => ?_⟩, fun hsome => ?_⟩
  · -- no argument ends the loop
    have hends : ∀ arg ∈ args, ends rules arg = false := by
      cases hfind : args.find? (ends rules) with
      | none => simpa using hfind
      | some arg =>
          obtain ⟨hinvalid, hvalid⟩ := argumentLoop_ends (.initial prompt) hfind
          cases hi : isInvalid rules arg with
          | true =>
              obtain ⟨e, he⟩ := hinvalid hi
              rw [he] at hrun
              cases hrun
          | false =>
              rw [hvalid hi] at hrun
              cases hrun
    -- Every order of the arguments runs through, and joins the same grants.
    have hloop : ∀ args' : List Str, args.Perm args' → ∃ state',
        argumentLoop rules (.initial prompt) args' = .ok (.next state') ∧
        ∀ c, slotGrant (state'.opts.allow c) = join (args.map (argGrant rules c)) := by
      intro args' hperm
      obtain ⟨state', hrun', -, hgrants⟩ := argumentLoop_next (.initial prompt)
        fun arg mem => hends arg (hperm.mem_iff.mpr mem)
      refine ⟨state', hrun', fun c => ?_⟩
      rw [hgrants, join_perm (hperm.map _)]
      exact bot_sup_eq _
    obtain ⟨same, hsame, hgrants⟩ := hloop args (.refl _)
    obtain rfl : same = state := by
      rw [hsame] at hrun
      exact Flow.next.inj (Except.ok.inj hrun)
    refine ⟨slots_of_grants hgrants, fun args' hperm => ?_⟩
    obtain ⟨state', hrun', hgrants'⟩ := hloop args' hperm
    exact ⟨state', hrun', fun c => by rw [hgrants', hgrants]⟩
  · obtain ⟨bad, mem, hbad⟩ := hbad
    have hinvalid : isInvalid rules bad = true := isInvalid_of (hno bad mem) hbad
    cases hfind : args.find? (ends rules) with
    | none =>
        have hnone := List.find?_eq_none.mp hfind bad mem
        simp [ends, hinvalid] at hnone
    | some arg =>
        have hends := List.find?_some hfind
        rw [ends, hno arg (List.mem_of_find?_eq_some hfind), Bool.or_false] at hends
        exact (buildPermissions_ends fromOptions prompt hfind).1 hends
  · obtain ⟨all, mem, hall⟩ := hsome
    cases hfind : args.find? (ends rules) with
    | none =>
        have hnone := List.find?_eq_none.mp hfind all mem
        simp [ends, hall] at hnone
    | some arg =>
        have hends := List.find?_some hfind
        obtain ⟨hinvalid, hvalid⟩ := buildPermissions_ends fromOptions prompt hfind
        cases hi : isInvalid rules arg with
        | true =>
            obtain ⟨e, he⟩ := hinvalid hi
            have hnot : ¬ (arg = lit "-A" ∨ arg = lit "--allow-all") := by
              intro hbare
              have harg : isAllowAllArg arg = true := by
                rcases hbare with rfl | rfl <;> decide
              rw [(allowAll_valid harg).mpr hbare] at hi
              cases hi
            rw [he]
            simp [hnot]
        | false =>
            rw [ends, hi, Bool.false_or] at hends
            rw [hvalid hi]
            simp [(allowAll_valid hends).mp hi]

/-- Two lists of paths, with an empty value between them, and all hosts. -/
def sampleArgs : List Str :=
  [lit "--allow-read=/a,,/b", lit "--allow-net", lit "--allow-read=/c"]

/-- The options after the sample. -/
def sampleState : LoopState where
  opts := (((LoopState.initial false).opts.grant .read [lit "/a", lit "/b"]).grant .net []).grant
    .read [lit "/c"]
  hasAllow := true

theorem sampleArgs_accepted :
    argumentLoop (.unix []) (.initial false) sampleArgs = .ok (.next sampleState) := rfl

/-- What may be read is what is listed, and every host is granted, in any order. -/
theorem permission_flags_sample :
    (∀ s, s ∈ [lit "/a", lit "/b", lit "/c"] ↔
      ∃ arg ∈ sampleArgs, Lists (.unix []) .read arg s) ∧
    Capability.net.flag ∈ sampleArgs ∧
    ∃ state', argumentLoop (.unix []) (.initial false) sampleArgs.reverse =
        .ok (.next state') ∧
      slotGrant (state'.opts.allow .read) = slotGrant (sampleState.opts.allow .read) := by
  have hno : ∀ arg ∈ sampleArgs, isAllowAllArg arg = false := by decide
  obtain ⟨hslots, hperm⟩ := ((permission_flags (.unix [])
    (fun _ => (.ok () : Except String Unit)) sampleArgs false).1 hno).1 _ sampleArgs_accepted
  obtain ⟨state', hrun, hsame⟩ := hperm _ (List.reverse_perm _).symm
  exact ⟨(hslots .read).2.2 _ rfl (List.cons_ne_nil _ _), (hslots .net).2.1.mp rfl, state', hrun,
    hsame .read⟩

end Libdeno.Permissions
