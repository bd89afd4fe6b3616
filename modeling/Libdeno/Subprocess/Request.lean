import Libdeno.Supervisor.Payload
import Libdeno.Supervisor.TerminalMapping
import Libdeno.Supervisor.Token

/-!
# Libdeno.Subprocess.Request

The request of a child run (subprocess.rs): what the parent checks of its options and writes,
`maybe_handle_child_mode` on the other side, and the checks the child's own run begins with
(lib.rs, limits.rs).

The parent rejects what its child would reject: a request it sends is serviced with the options
of the parent, and the run it starts passes its checks. Nothing but a request that carries the
token of the environment is ever run (`child_request_serviced`).
-/

namespace Libdeno.Subprocess

open Supervisor

/-- `LibdenoOptions`, as far as a subprocess looks into it; a deadline is in nanoseconds. -/
structure LibdenoOptions where
  /-- `extensions.is_some()`. -/
  extensions : Bool
  permissions : List String
  allowAllPermissions : Bool
  prompt : Bool
  args : List String
  cwd : Option String
  features : Option (List String)
  maxHeapBytes : Option (BitVec 64)
  executionDeadline : Option Nat
  captureStdout : Bool
  captureStderr : Bool
  maxCaptureBytes : Option (BitVec 64)
  deriving Repr, DecidableEq

/-- `LibdenoOptions::default()`. -/
def LibdenoOptions.default : LibdenoOptions where
  extensions := false
  permissions := []
  allowAllPermissions := false
  prompt := false
  args := []
  cwd := none
  features := none
  maxHeapBytes := none
  executionDeadline := none
  captureStdout := false
  captureStderr := false
  maxCaptureBytes := none

/-- `ChildRunRequest`. -/
structure ChildRunRequest where
  entry : String
  permissions : List String
  allowAllPermissions : Bool
  prompt : Bool
  args : List String
  cwd : String
  token : List UInt8
  features : Option (List String)
  maxHeapBytes : Option (BitVec 64)
  executionDeadline : Option Nat
  deriving Repr, DecidableEq

/-- `if condition { return Err(error) }`. -/
def refuseIf (condition : Bool) (error : LibdenoError) : Except LibdenoError Unit :=
  if condition then .error error else .ok ()

@[simp] theorem refuseIf_ok {condition : Bool} {error : LibdenoError} {u : Unit} :
    refuseIf condition error = .ok u ↔ condition = false := by
  cases condition <;> simp [refuseIf]

/-- What a process asks of the system it runs on. -/
structure Host where
  /-- `Path::is_absolute`. -/
  isAbsolute : String → Bool
  /-- `Path::join`. -/
  join : String → String → String
  currentDir : Except IoError String
  canonicalize : String → Except IoError String
  isDir : String → Bool
  /-- `Instant::now`, and the last instant the clock can name. -/
  now : Nat
  lastInstant : Nat
  /-- `build_permissions(args, allow_all, prompt, .., cwd)`, without the container. -/
  buildPermissions : List String → Bool → Bool → String → Except LibdenoError Unit
  /-- The names of `UNSTABLE_FEATURES`. -/
  unstableFeatures : List String

namespace Host

/-- `effective_cwd`. -/
def effectiveCwd (host : Host) (options : LibdenoOptions) : Except LibdenoError String :=
  match options.cwd with
  | none =>
      match host.currentDir with
      | .error error => .error (.io error)
      | .ok cwd =>
          match host.canonicalize cwd with
          | .ok canonical => .ok canonical
          | .error _ => .ok cwd
  | some cwd => do
      let raw ←
        if host.isAbsolute cwd then .ok cwd
        else
          match host.currentDir with
          | .error error => .error (.io error)
          | .ok current => .ok (host.join current cwd)
      match host.canonicalize raw with
      | .error error => .error (.configuration
          s!"LibdenoOptions.cwd {raw} is not a usable directory: {error.message}")
      | .ok resolved =>
          if host.isDir resolved then .ok resolved
          else .error (.configuration s!"LibdenoOptions.cwd {raw} is not a directory")

/-! ### The limits -/

/-- `MIN_V8_OLD_GENERATION_BYTES`. -/
def MIN_V8_OLD_GENERATION_BYTES : BitVec 64 := 8 <<< 20

/-- `validate_max_heap_bytes`. -/
def validateMaxHeapBytes : Option (BitVec 64) → Except LibdenoError Unit
  | none => .ok ()
  | some bytes =>
      if bytes < MIN_V8_OLD_GENERATION_BYTES then
        .error (.configuration (s!"max_heap_bytes={bytes.toNat} is too small; use at least " ++
          s!"{MIN_V8_OLD_GENERATION_BYTES.toNat} bytes for a V8 old-generation limit"))
      else if bytes = BitVec.allOnes 64 then
        .error (.configuration
          "max_heap_bytes=usize::MAX cannot be represented as a finite V8 heap budget")
      else .ok ()

/-- `validate_execution_deadline`. -/
def validateExecutionDeadline (host : Host) (deadline : Option Nat) : Except LibdenoError Unit :=
  refuseIf (deadline.any fun duration => host.lastInstant < host.now + duration)
    (.configuration "execution deadline is too large for the host clock")

/-- `reject_zero_deadline`. -/
def rejectZeroDeadline (deadline : Option Nat) : Except LibdenoError Unit :=
  refuseIf (deadline.any (· = 0))
    (.timeout "execution deadline of 0ns exceeded; script was not started")

/-- `validate_prompt_capture`. -/
def validatePromptCapture (prompt captureStderr : Bool) : Except LibdenoError Unit :=
  refuseIf (prompt && captureStderr)
    (.configuration ("prompt and capture_stderr cannot be combined: permission prompts " ++
      "are written to stderr and require it to be a terminal, but capture replaces stderr with " ++
      "a pipe, so every ungranted check would be denied without prompting. Capture stdout " ++
      "only, or grant the capabilities up front"))

/-- `static_feature_names`. -/
def staticFeatureNames (host : Host) (features : List String) : Except String (List String) :=
  features.foldlM (fun names feature =>
    if feature ∈ host.unstableFeatures then
      .ok (if feature ∈ names then names else names ++ [feature])
    else .error feature) []

/-- The check of the features, where a list is given. -/
def validateFeatures (host : Host) : Option (List String) → Except LibdenoError Unit
  | none => .ok ()
  | some features =>
      match host.staticFeatureNames features with
      | .ok _ => .ok ()
      | .error bad => .error (.configuration s!"unknown runtime feature: {bad}")

/-! ### The parent -/

/-- `validate_child_options`. -/
def validateChildOptions (host : Host) (options : LibdenoOptions) (cwd : String)
    (captureStderr : Bool) : Except LibdenoError Unit := do
  validateMaxHeapBytes options.maxHeapBytes
  host.validateExecutionDeadline options.executionDeadline
  rejectZeroDeadline options.executionDeadline
  refuseIf (options.prompt && captureStderr && !options.captureStderr)
    (.configuration ("prompt cannot be combined with run_in_subprocess_with_output: it " ++
      "always captures stderr, and permission prompts require stderr to be a terminal. Use " ++
      "run_in_subprocess (no capture), or grant the capabilities up front"))
  validatePromptCapture options.prompt captureStderr
  host.buildPermissions options.permissions options.allowAllPermissions options.prompt cwd
  host.validateFeatures options.features

/-- `MAX_CHILD_REQUEST_BYTES`. -/
def MAX_CHILD_REQUEST_BYTES : Nat := 1024 * 1024

/-- `validate_child_request_size`. -/
def validateChildRequestSize (payload : List UInt8) : Except LibdenoError Unit :=
  refuseIf (MAX_CHILD_REQUEST_BYTES < payload.length)
    (.runtime s!"child-mode request exceeds the {MAX_CHILD_REQUEST_BYTES}-byte limit" false)

end Host

/-- The markers of a child in the environment of a process: the value of `LIBDENO_CHILD_MODE`
and of `LIBDENO_CHILD_TOKEN`. -/
structure Markers where
  mode : Option String
  token : Option (List UInt8)
  deriving Repr, DecidableEq

/-- Both markers are set. -/
def Markers.isChild (env : Markers) : Bool := env.mode.isSome && env.token.isSome

/-- `spawn_child_request` up to the spawn: the payload, and the markers and the cwd of the child;
`token` is what `child_token` returns. -/
def Host.childRequest (host : Host) (env : Markers) (json : SerdeJson ChildRunRequest)
    (entry : String) (options : LibdenoOptions) (token : Except String (List UInt8))
    (captureStderr : Bool) : Except LibdenoError (List UInt8 × Markers × String) := do
  refuseIf options.extensions
    (.configuration "native extension factories are not supported by subprocess execution")
  let token ← token.mapError (.runtime · false)
  let cwd ← host.effectiveCwd options
  host.validateChildOptions options cwd captureStderr
  let request : ChildRunRequest := {
    entry
    permissions := options.permissions
    allowAllPermissions := options.allowAllPermissions
    prompt := options.prompt
    args := options.args
    cwd
    token
    features := options.features
    maxHeapBytes := options.maxHeapBytes
    executionDeadline := options.executionDeadline }
  let payload ← (json.toVec request).mapError (.runtime · false)
  validateChildRequestSize payload
  refuseIf env.isChild
    (.configuration ("run_in_subprocess was called from a process spawned as a libdeno " ++
      "child that never serviced child mode; call maybe_handle_child_mode() at the start of " ++
      "main()"))
  return (payload, { mode := some "1", token := some token }, cwd)

/-! ### The child -/

/-- What the child's reader thread gets of stdin within its ten seconds: all that was written,
an error, nothing, or it is gone. -/
inductive ChildStdin
  | received (written : List UInt8)
  | failed (error : IoError)
  | timedOut
  | disconnected
  deriving Repr, DecidableEq

/-- What `maybe_handle_child_mode` comes to: it returns, exits with status 1, or runs an entry
with options, the markers being what is left of them. -/
inductive ChildMode
  | notChild
  | exits (message : String)
  | runs (entry : String) (options : LibdenoOptions) (env : Markers)
  deriving Repr, DecidableEq

/-- The text of an error. -/
def display : LibdenoError → String
  | .entry message => "failed to resolve entry module: " ++ message
  | .permission message => "invalid permission flags: " ++ message
  | .configuration message | .timeout message => message
  | .runtime message _ | .core message _ => message
  | .io error => error.message

/-- What the reader thread makes of what was written; it reads one byte past the limit. -/
def readRequest (json : SerdeJson ChildRunRequest) (written : List UInt8) :
    Except LibdenoError ChildRunRequest := do
  let payload := written.take (Host.MAX_CHILD_REQUEST_BYTES + 1)
  Host.validateChildRequestSize payload
  (json.fromSlice payload).mapError (.runtime · false)

/-- The options of the run a request asks for. -/
def ChildRunRequest.options (request : ChildRunRequest) : LibdenoOptions :=
  { LibdenoOptions.default with
    permissions := request.permissions
    allowAllPermissions := request.allowAllPermissions
    prompt := request.prompt
    args := request.args
    cwd := some request.cwd
    features := request.features
    maxHeapBytes := request.maxHeapBytes
    executionDeadline := request.executionDeadline }

/-- `maybe_handle_child_mode`, up to the run. -/
def maybeHandleChildMode (json : SerdeJson ChildRunRequest) (env : Markers) (stdin : ChildStdin) :
    ChildMode :=
  if env.mode ≠ some "1" then .notChild
  else
    match env.token with
    | none => .exits ("libdeno: LIBDENO_CHILD_MODE is set but LIBDENO_CHILD_TOKEN is missing; " ++
        "refusing to service an unauthenticated child request")
    | some envToken =>
        let failed (error : LibdenoError) : ChildMode :=
          .exits ("libdeno child run failed: " ++ display error)
        match stdin with
        | .timedOut =>
            .exits "libdeno: child-mode request timed out waiting on stdin; refusing to run"
        | .disconnected =>
            failed (.runtime "child-mode stdin reader terminated unexpectedly" false)
        | .failed error => failed (.io error)
        | .received written =>
            match readRequest json written with
            | .error error => failed error
            | .ok request =>
                if constantTimeEq request.token envToken then
                  .runs request.entry request.options { mode := none, token := none }
                else
                  failed (.runtime "child request token does not match LIBDENO_CHILD_TOKEN" false)

/-- The checks a run begins with (`run_inner_with_cancellation`, and `build_main_worker` for the
features). -/
def Host.runChecks (host : Host) (options : LibdenoOptions) : Except LibdenoError Unit := do
  let cwd ← host.effectiveCwd options
  validateMaxHeapBytes options.maxHeapBytes
  host.validateExecutionDeadline options.executionDeadline
  validatePromptCapture options.prompt options.captureStderr
  rejectZeroDeadline options.executionDeadline
  host.buildPermissions options.permissions options.allowAllPermissions options.prompt cwd
  host.validateFeatures options.features

/-! ### The two sides agree -/

/-- The parent's options as its child runs them: the cwd is pinned, and nothing is captured. -/
def LibdenoOptions.inChild (options : LibdenoOptions) (cwd : String) : LibdenoOptions :=
  { options with
    cwd := some cwd
    captureStdout := false
    captureStderr := false
    maxCaptureBytes := none }

/-- Another process on the same system, later: what it is asked for is answered alike. -/
structure Host.SameSystem (host child : Host) : Prop where
  isAbsolute : child.isAbsolute = host.isAbsolute
  canonicalize : child.canonicalize = host.canonicalize
  isDir : child.isDir = host.isDir
  buildPermissions : child.buildPermissions = host.buildPermissions
  unstableFeatures : child.unstableFeatures = host.unstableFeatures

/-- What the parent has checked when it accepts the options. -/
theorem Host.validateChildOptions_ok {host : Host} {options : LibdenoOptions} {cwd : String}
    {captureStderr : Bool}
    (h : host.validateChildOptions options cwd captureStderr = .ok ()) :
    Host.validateMaxHeapBytes options.maxHeapBytes = .ok () ∧
      Host.rejectZeroDeadline options.executionDeadline = .ok () ∧
      host.buildPermissions options.permissions options.allowAllPermissions options.prompt cwd =
        .ok () ∧
      host.validateFeatures options.features = .ok () := by
  simp only [validateChildOptions, except_bind_ok] at h
  obtain ⟨_, hheap, _, -, _, hzero, _, -, _, -, _, hpermissions, hfeatures⟩ := h
  exact ⟨hheap, hzero, hpermissions, hfeatures⟩

/-- What an accepted request is. -/
theorem Host.childRequest_ok {host : Host} {env : Markers} {json : SerdeJson ChildRunRequest}
    {entry : String} {options : LibdenoOptions} {token : Except String (List UInt8)}
    {captureStderr : Bool} {payload : List UInt8} {childEnv : Markers} {cwd : String}
    (h : host.childRequest env json entry options token captureStderr =
      .ok (payload, childEnv, cwd)) :
    env.isChild = false ∧ options.extensions = false ∧ host.effectiveCwd options = .ok cwd ∧
      host.validateChildOptions options cwd captureStderr = .ok () ∧
      ∃ request : ChildRunRequest, token = .ok request.token ∧ request.entry = entry ∧
        request.options = options.inChild cwd ∧
        json.toVec request = .ok payload ∧ payload.length ≤ MAX_CHILD_REQUEST_BYTES ∧
        childEnv = { mode := some "1", token := some request.token } := by
  simp only [childRequest, except_bind_ok, mapError_ok, refuseIf_ok] at h
  obtain ⟨_, hextensions, token, htoken, cwd', hcwd, _, hchecks, payload', hpayload, _, hsize, _,
    hchild, heq⟩ := h
  cases heq
  refine ⟨hchild, hextensions, hcwd, hchecks, _, htoken, rfl, ?_, hpayload, ?_, rfl⟩
  · simp [ChildRunRequest.options, LibdenoOptions.default, LibdenoOptions.inChild, hextensions]
  · simpa [validateChildRequestSize] using hsize

/-- What a child runs is a request that was written to it, with the token of its environment. -/
theorem maybeHandleChildMode_runs {json : SerdeJson ChildRunRequest} {env env' : Markers}
    {stdin : ChildStdin} {entry : String} {options : LibdenoOptions} :
    maybeHandleChildMode json env stdin = .runs entry options env' ↔
      env.mode = some "1" ∧ env' = { mode := none, token := none } ∧
        ∃ written request, stdin = .received written ∧ readRequest json written = .ok request ∧
          request.token ≠ [] ∧ env.token = some request.token ∧ entry = request.entry ∧
          options = request.options := by
  unfold maybeHandleChildMode
  by_cases hmode : env.mode = some "1"
  · rw [if_neg (not_not_intro hmode)]
    cases htoken : env.token with
    | none => simp
    | some envToken =>
        cases stdin with
        | timedOut => simp
        | disconnected => simp
        | failed error => simp
        | received written =>
            cases hread : readRequest json written with
            | error error => simp [hread]
            | ok request =>
                simp only [hread]
                by_cases hmatch : constantTimeEq request.token envToken = true
                · rw [if_pos hmatch]
                  obtain ⟨hne, rfl⟩ := (constantTimeEq_iff _ _).mp hmatch
                  constructor
                  · intro h
                    cases h
                    exact ⟨hmode, rfl, written, request, rfl, hread, hne, rfl, rfl, rfl⟩
                  · rintro ⟨-, rfl, written', request', hwritten, hread', -, -, rfl, rfl⟩
                    cases hwritten
                    rw [hread] at hread'
                    cases hread'
                    rfl
                · rw [if_neg hmatch]
                  refine ⟨fun h => (by cases h), ?_⟩
                  rintro ⟨-, -, written', request', hwritten, hread', hne, htoken', -, -⟩
                  cases hwritten
                  rw [hread] at hread'
                  cases hread'
                  cases htoken'
                  exact absurd ((constantTimeEq_iff _ _).mpr ⟨hne, rfl⟩) hmatch
  · simp [hmode]

/-- A request within the limit is read whole. -/
theorem readRequest_ok {json : SerdeJson ChildRunRequest} {written : List UInt8}
    {request : ChildRunRequest} :
    readRequest json written = .ok request ↔
      written.length ≤ Host.MAX_CHILD_REQUEST_BYTES ∧ json.fromSlice written = .ok request := by
  simp only [readRequest, except_bind_ok, mapError_ok, Host.validateChildRequestSize, refuseIf_ok,
    decide_eq_false_iff_not, Nat.not_lt, List.length_take, exists_const]
  constructor
  · rintro ⟨hlength, hread⟩
    have hle : written.length ≤ Host.MAX_CHILD_REQUEST_BYTES := by omega
    rw [List.take_of_length_le (by omega)] at hread
    exact ⟨hle, hread⟩
  · rintro ⟨hle, hread⟩
    rw [List.take_of_length_le (by omega)]
    exact ⟨by omega, hread⟩

/-- The checks of the child's run pass where the parent's have, as long as its clock can still
name the deadline. -/
theorem Host.SameSystem.runChecks {host child : Host} (same : host.SameSystem child)
    {options : LibdenoOptions} {cwd : String} {captureStderr : Bool}
    (checked : host.validateChildOptions options cwd captureStderr = .ok ())
    (canonical : host.canonicalize cwd = .ok cwd) (absolute : host.isAbsolute cwd = true)
    (directory : host.isDir cwd = true)
    (clock : ∀ d, options.executionDeadline = some d → child.now + d ≤ child.lastInstant) :
    child.runChecks (options.inChild cwd) = .ok () := by
  obtain ⟨hheap, hzero, hpermissions, hfeatures⟩ := validateChildOptions_ok checked
  have hcwd : child.effectiveCwd (options.inChild cwd) = .ok cwd := by
    simp [effectiveCwd, LibdenoOptions.inChild, same.isAbsolute, same.canonicalize, same.isDir,
      absolute, canonical, directory, bind, Except.bind]
  have hdeadline : child.validateExecutionDeadline options.executionDeadline = .ok () := by
    rw [validateExecutionDeadline, refuseIf_ok]
    cases hd : options.executionDeadline with
    | none => rfl
    | some d => simpa using clock d hd
  have hfeatures' : child.validateFeatures options.features = .ok () := by
    rw [← hfeatures]
    unfold validateFeatures staticFeatureNames
    rw [same.unstableFeatures]
  have hpermissions' : child.buildPermissions options.permissions options.allowAllPermissions
      options.prompt cwd = .ok () := by
    rw [same.buildPermissions, hpermissions]
  simp only [Host.runChecks, except_bind_ok]
  exact ⟨cwd, hcwd, (), hheap, (), hdeadline, (), by simp [validatePromptCapture,
    LibdenoOptions.inChild], (), hzero, (), hpermissions', hfeatures'⟩

/-- The request a parent sends is serviced with the options of the parent, and the checks the
run begins with pass; whatever else reaches the child's stdin, it runs nothing but a request that
carries its token, and the markers are gone when it does. -/
theorem child_request_serviced {host child : Host} (same : host.SameSystem child) {env : Markers}
    {json : SerdeJson ChildRunRequest}
    (faithful : ∀ request payload, json.toVec request = .ok payload →
      json.fromSlice payload = .ok request)
    {entry : String} {options : LibdenoOptions} {buffer payload : List UInt8}
    {captureStderr : Bool} {childEnv : Markers} {cwd : String} (random : buffer.length = 16)
    (accepted : host.childRequest env json entry options (.ok (randomHex buffer)) captureStderr =
      .ok (payload, childEnv, cwd))
    (canonical : host.canonicalize cwd = .ok cwd) (absolute : host.isAbsolute cwd = true)
    (directory : host.isDir cwd = true)
    (clock : ∀ d, options.executionDeadline = some d → child.now + d ≤ child.lastInstant) :
    maybeHandleChildMode json childEnv (.received payload) =
      .runs entry (options.inChild cwd) { mode := none, token := none } ∧
    child.runChecks (options.inChild cwd) = .ok () ∧
    ∀ stdin entry' run env', maybeHandleChildMode json childEnv stdin = .runs entry' run env' →
      env'.isChild = false ∧ ∃ written request, stdin = .received written ∧
        json.fromSlice written = .ok request ∧ request.token = randomHex buffer ∧
        entry' = request.entry ∧ run = request.options := by
  obtain ⟨-, -, -, hchecked, request, htoken, hentry, hoptions, hpayload, hsize, rfl⟩ :=
    Host.childRequest_ok accepted
  have htoken := Except.ok.inj htoken
  have hne : request.token ≠ [] := by
    intro hempty
    have hlength := congrArg List.length htoken
    rw [hempty, randomHex, Hex.encode_length, random] at hlength
    cases hlength
  refine ⟨?_, same.runChecks hchecked canonical absolute directory clock, ?_⟩
  · refine maybeHandleChildMode_runs.mpr ⟨rfl, rfl, payload, request, rfl,
      readRequest_ok.mpr ⟨hsize, faithful _ _ hpayload⟩, hne, rfl, hentry.symm, hoptions.symm⟩
  · intro stdin entry' run env' hrun
    obtain ⟨-, rfl, written, request', rfl, hread, -, htoken', rfl, rfl⟩ :=
      maybeHandleChildMode_runs.mp hrun
    refine ⟨rfl, written, request', rfl, (readRequest_ok.mp hread).2, ?_, rfl, rfl⟩
    exact (Option.some.inj htoken').symm.trans htoken.symm

/-- A system whose one directory is `/srv`. -/
def sampleHost : Host where
  isAbsolute := fun path => path = "/srv"
  join := fun base path => base ++ "/" ++ path
  currentDir := .ok "/srv"
  canonicalize := fun path =>
    if path = "/srv" then .ok "/srv"
    else .error { kind := .other, message := "No such file or directory (os error 2)" }
  isDir := fun path => path = "/srv"
  now := 1000
  lastInstant := 100000000000000000000
  buildPermissions := fun args _ _ _ =>
    if args = ["--allow-net"] then .ok () else .error (.permission "unknown permission flag")
  unstableFeatures := ["kv"]

def sampleOptions : LibdenoOptions :=
  { LibdenoOptions.default with
    permissions := ["--allow-net"]
    features := some ["kv"]
    executionDeadline := some 5000000000
    captureStderr := true }

/-- The request of these options. -/
def sampleRequest : ChildRunRequest where
  entry := "main.ts"
  permissions := ["--allow-net"]
  allowAllPermissions := false
  prompt := false
  args := []
  cwd := "/srv"
  token := randomHex (List.replicate 16 7)
  features := some ["kv"]
  maxHeapBytes := none
  executionDeadline := some 5000000000

/-- The bytes `serde_json` writes of it. -/
def samplePayload : List UInt8 :=
  ("\x7b\"entry\":\"main.ts\",\"permissions\":[\"--allow-net\"]," ++
    "\"allow_all_permissions\":false,\"prompt\":false,\"args\":[],\"cwd\":\"/srv\"," ++
    "\"token\":\"07070707070707070707070707070707\",\"features\":[\"kv\"]," ++
    "\"max_heap_bytes\":null,\"execution_deadline\":\x7b\"secs\":5,\"nanos\":0\x7d\x7d").toList.map
      fun c => UInt8.ofNat c.toNat

/-- A serialisation of one request. -/
def oneRequest (request : ChildRunRequest) (payload : List UInt8) :
    SerdeJson ChildRunRequest where
  toVec := fun r => if r = request then .ok payload else .error "not written"
  fromSlice := fun text => if text = payload then .ok request else .error "not read"

theorem oneRequest_faithful {request : ChildRunRequest} {payload : List UInt8}
    (r : ChildRunRequest) (text : List UInt8)
    (h : (oneRequest request payload).toVec r = .ok text) :
    (oneRequest request payload).fromSlice text = .ok r := by
  simp only [oneRequest] at h ⊢
  split at h
  · next heq =>
    cases h
    rw [if_pos rfl, heq]
  · cases h

def sampleJson : SerdeJson ChildRunRequest := oneRequest sampleRequest samplePayload

theorem sampleRequest_accepted (payload : List UInt8)
    (fits : payload.length ≤ Host.MAX_CHILD_REQUEST_BYTES) :
    sampleHost.childRequest { mode := none, token := none } (oneRequest sampleRequest payload)
      "main.ts" sampleOptions (.ok (randomHex (List.replicate 16 7))) true =
    .ok (payload, { mode := some "1", token := some (randomHex (List.replicate 16 7)) },
      "/srv") := by
  have hwritten : (oneRequest sampleRequest payload).toVec sampleRequest = .ok payload := by
    simp [oneRequest]
  have hsize : Host.validateChildRequestSize payload = .ok () := by
    simpa [Host.validateChildRequestSize] using fits
  have hchecks : sampleHost.validateChildOptions sampleOptions "/srv" true = .ok () := by decide
  simp only [Host.childRequest, except_bind_ok, mapError_ok]
  exact ⟨(), rfl, _, rfl, "/srv", rfl, (), hchecks, payload, hwritten, (), hsize, (), rfl, rfl⟩

theorem samplePayload_fits : samplePayload.length ≤ Host.MAX_CHILD_REQUEST_BYTES := by
  decide +kernel

theorem child_request_serviced_sample :
    maybeHandleChildMode sampleJson
        { mode := some "1", token := some (randomHex (List.replicate 16 7)) }
        (.received samplePayload) =
      .runs "main.ts" (sampleOptions.inChild "/srv") { mode := none, token := none } ∧
    sampleHost.runChecks (sampleOptions.inChild "/srv") = .ok () ∧
    ∀ stdin entry' run env', maybeHandleChildMode sampleJson
        { mode := some "1", token := some (randomHex (List.replicate 16 7)) } stdin =
        .runs entry' run env' →
      env'.isChild = false ∧ ∃ written request, stdin = .received written ∧
        sampleJson.fromSlice written = .ok request ∧
        request.token = randomHex (List.replicate 16 7) ∧
        entry' = request.entry ∧ run = request.options :=
  have same : sampleHost.SameSystem sampleHost := ⟨rfl, rfl, rfl, rfl, rfl⟩
  child_request_serviced same oneRequest_faithful (List.length_replicate ..)
    (sampleRequest_accepted samplePayload samplePayload_fits) rfl rfl rfl
    (fun d hd => by cases hd; decide)

end Libdeno.Subprocess
