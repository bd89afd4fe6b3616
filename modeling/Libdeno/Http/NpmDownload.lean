import Mathlib.Data.List.Infix
import Mathlib.Tactic.Common
import Libdeno.Library.BigEndian

/-!
# Libdeno.Http.NpmDownload

The npm registry download of `http.rs`: one loop that retries, follows redirects by hand
and buffers the final body. The loop is run against a list of *turns*, one for each
request, which say what the registry answered and how much of the wall-clock budget was
left; the registry is free to answer anything.

What is tracked of a request is the URL and the two headers this function sets. URLs are
what the `url` crate makes of them, so they are a parameter (`UrlApi`).
-/

namespace Libdeno.Http

/-! ### URLs, header values and the client's parameters -/

/-- What the download uses of the `url`, `http` and `base64` crates. An opaque origin is
`none`: it differs from every origin, its own included. -/
structure UrlApi (Url Origin : Type) where
  path : Url → String
  origin : Url → Option Origin
  join : Url → String → Except String Url
  statusText : Nat → String
  base64 : String → String

/-- `a.origin() == b.origin()`. -/
def UrlApi.sameOrigin {Url Origin : Type} [DecidableEq Origin] (api : UrlApi Url Origin)
    (a b : Url) : Bool :=
  match api.origin a, api.origin b with
  | some origin, some origin' => origin = origin'
  | _, _ => false

/-- `HeaderValue::to_str`: only visible ASCII and tabs. -/
def headerToStr (value : List UInt8) : Option String :=
  if value.all fun b => (32 ≤ b && b < 127) || b = 9 then
    some (String.ofList (value.map fun b => Char.ofNat b.toNat))
  else none

/-- `MAX_RESPONSE_BODY_BYTES`. -/
def maxResponseBodyBytes : Nat := 256 <<< 20

/-- `MAX_TARBALL_BODY_BYTES`. -/
def maxTarballBodyBytes : Nat := 1 <<< 30

/-- What the reads of `HTTP_RETRY_WALL_CLOCK_BUDGET` say once it is spent. -/
def httpBudgetExceeded : String := "HTTP request exceeded the 300-second wall-clock budget"

/-- The same for the npm loop's own checks. -/
def npmBudgetExceeded : String :=
  "npm registry request exceeded the 300-second wall-clock budget"

/-- `remaining_http_budget`, of the nanoseconds left before the deadline. -/
def remainingHttpBudget (left : Nat) : Except String Nat :=
  if left = 0 then .error httpBudgetExceeded else .ok left

/-- `DownloadError`. -/
structure DownloadError where
  statusCode : Option Nat
  message : String
  deriving Repr, DecidableEq

/-- `NpmCacheHttpClientResponse`. -/
inductive NpmResponse
  | notFound
  | notModified
  | bytes (bytes : List UInt8) (etag : Option String)
  deriving Repr, DecidableEq

/-- `RegistryConfig`, as far as it is read for credentials. -/
structure RegistryConfig where
  authToken : Option String
  auth : Option String
  username : Option String
  password : Option String
  deriving Repr, DecidableEq

/-- The credentials of a download: the caller's, or else those of the npmrc. -/
def downloadAuth {Url Origin : Type} (api : UrlApi Url Origin) (maybeAuth : Option String)
    (maybeRegistryConfig : Option RegistryConfig) : Option String :=
  maybeAuth.or <| maybeRegistryConfig.bind fun config =>
    match config.authToken, config.auth, config.username, config.password with
    | some token, _, _, _ => some s!"Bearer {token}"
    | none, some token, _, _ => some s!"Basic {token}"
    | none, none, some user, some pass => some ("Basic " ++ api.base64 (user ++ ":" ++ pass))
    | _, _, _, _ => none

/-! ### The body -/

/-- `read_body_limited`, of the chunks the response delivers. -/
def readBodyLimited (limit : Nat) :
    List (Except String (List UInt8)) → List UInt8 → Except String (List UInt8)
  | [], body => .ok body
  | .error e :: _, _ => .error s!"failed to read response body: {e}"
  | .ok chunk :: chunks, body =>
      if limit - body.length < chunk.length then
        .error s!"response body exceeded the {limit}-byte limit"
      else readBodyLimited limit chunks (body ++ chunk)

/-- `npm_body_limit`: the declared length is not looked at. -/
def npmBodyLimit (isTarball : Bool) (_contentLength : Option Nat) : Nat :=
  if isTarball then maxTarballBodyBytes else maxResponseBodyBytes

/-- The gzip trailer's last word: the four last bytes, least significant first. -/
def gzipIsize (bytes : List UInt8) : Nat :=
  BigEndian.ofBE (bytes.drop (bytes.length - 4)).reverse

/-- `guard_tarball_isize`; `budget` is `tarball_decompress_budget`. -/
def guardTarballIsize (budget : Nat) (isTarball : Bool) (bytes : List UInt8) :
    Except String (List UInt8) :=
  if !isTarball || bytes.length < 8 || bytes.take 2 != [0x1f, 0x8b] then .ok bytes
  else if budget < gzipIsize bytes then
    .error s!"tarball declares {gzipIsize bytes} decompressed bytes, over the {budget}-byte budget (raise LIBDENO_MAX_TARBALL_DECOMPRESSED_BYTES to allow it)"
  else .ok bytes

/-- A body that is accepted stays within its limit. -/
theorem readBodyLimited_length {limit : Nat} {chunks : List (Except String (List UInt8))}
    {body bytes : List UInt8} (within : body.length ≤ limit)
    (h : readBodyLimited limit chunks body = .ok bytes) : bytes.length ≤ limit := by
  induction chunks generalizing body with
  | nil =>
      rw [readBodyLimited] at h
      cases h
      exact within
  | cons chunk chunks ih =>
      cases chunk with
      | error e => cases h
      | ok chunk =>
          rw [readBodyLimited] at h
          split at h
          · cases h
          · have hfits : (body ++ chunk).length ≤ limit := by
              rw [List.length_append]
              omega
            exact ih hfits h

/-- The guard lets a body through unchanged or not at all. -/
theorem guardTarballIsize_inv {budget : Nat} {isTarball : Bool} {bytes guarded : List UInt8}
    (h : guardTarballIsize budget isTarball bytes = .ok guarded) :
    guarded = bytes ∧
      (isTarball = true → 8 ≤ bytes.length → bytes.take 2 = [0x1f, 0x8b] →
        gzipIsize bytes ≤ budget) := by
  rw [guardTarballIsize] at h
  split at h
  · rename_i hplain
    cases h
    refine ⟨rfl, ?_⟩
    intro htar hlong hmagic
    rw [htar, hmagic] at hplain
    simp at hplain
    omega
  · split at h
    · cases h
    · cases h
      exact ⟨rfl, fun _ _ _ => by omega⟩

/-! ### The loop -/

/-- `reqwest::Response`: the header values are as they were received. -/
structure Response where
  status : Nat
  location : Option (List UInt8)
  etag : Option (List UInt8)
  contentLength : Option Nat
  chunks : List (Except String (List UInt8))

/-- `StatusCode::is_success`. -/
def Response.isSuccess (response : Response) : Bool :=
  200 ≤ response.status && response.status < 300

/-- `StatusCode::is_redirection`. -/
def Response.isRedirection (response : Response) : Bool :=
  300 ≤ response.status && response.status < 400

/-- `StatusCode::is_server_error`. -/
def Response.isServerError (response : Response) : Bool :=
  500 ≤ response.status && response.status < 600

/-- How sending a request ends: a response, a network error, or the timeout. -/
inductive Answer
  | response (response : Response)
  | failed (error : String)
  | timedOut

/-- One request's circumstances: the budget left before it is sent, its answer, the budget
left after the answer, and whether the body arrives within it. -/
structure Turn where
  left : Nat
  answer : Answer
  leftAfter : Nat
  bodyInTime : Bool

/-- The variables of the loop. -/
structure DownloadState (Url : Type) where
  url : Url
  auth : Option String
  etag : Option String
  attempt : Nat
  redirectsRemaining : Nat
  deriving Repr, DecidableEq

/-- A request: its URL and the headers the loop put on it. -/
structure Request (Url : Type) where
  url : Url
  authorization : Option String
  ifNoneMatch : Option String
  deriving Repr, DecidableEq

/-- A request that was sent and the turn that answered it. -/
structure Exchange (Url : Type) where
  request : Request Url
  turn : Turn

/-- What one pass through the loop comes to: `continue` or `return`. -/
inductive Flow (Url : Type)
  | again (state : DownloadState Url)
  | done (result : Except DownloadError NpmResponse)

variable {Url Origin : Type} [DecidableEq Url] [DecidableEq Origin]

/-- The request a pass sends. -/
def DownloadState.request (state : DownloadState Url) : Request Url where
  url := state.url
  authorization := state.auth
  ifNoneMatch := state.etag

/-- `url.path().ends_with(".tgz")`. -/
def UrlApi.isTarball (api : UrlApi Url Origin) (url : Url) : Bool :=
  ".tgz".toList.isSuffixOf (api.path url).toList

/-- The answer to a success status. -/
def readResponse (budget : Nat) (isTarball : Bool) (turn : Turn) (response : Response) :
    Except DownloadError NpmResponse :=
  match remainingHttpBudget turn.leftAfter with
  | .error e => .error ⟨none, e⟩
  | .ok _ =>
      if !turn.bodyInTime then .error ⟨none, npmBudgetExceeded⟩
      else
        match readBodyLimited (npmBodyLimit isTarball response.contentLength)
            response.chunks [] with
        | .error e => .error ⟨none, s!"failed to read npm registry response: {e}"⟩
        | .ok bytes =>
            match guardTarballIsize budget isTarball bytes with
            | .error e => .error ⟨none, s!"failed to download npm tarball: {e}"⟩
            | .ok bytes => .ok (.bytes bytes (response.etag.bind headerToStr))

/-- The error of a status the loop does not handle. -/
def statusError (api : UrlApi Url Origin) (status : Nat) : DownloadError :=
  ⟨some status, s!"npm registry request failed with status {api.statusText status}"⟩

/-- The answer to a redirection. -/
def followRedirect (api : UrlApi Url Origin) (state : DownloadState Url)
    (response : Response) : Flow Url :=
  if state.redirectsRemaining = 0 then .done (.error (statusError api response.status))
  else
    match response.location.bind headerToStr with
    | none => .done (.error (statusError api response.status))
    | some location =>
        match api.join state.url location with
        | .error e =>
            .done (.error ⟨some response.status,
              s!"invalid npm registry redirect location: {e}"⟩)
        | .ok next =>
            .again {
              url := next
              auth := if api.sameOrigin next state.url then state.auth else none
              etag := if next = state.url then state.etag else none
              attempt := 0
              redirectsRemaining := state.redirectsRemaining - 1 }

/-- The wait before a retry: `200 * attempt` milliseconds, within the budget. -/
def backoff (turn : Turn) (state : DownloadState Url) : Flow Url :=
  match remainingHttpBudget turn.leftAfter with
  | .error e => .done (.error ⟨none, e⟩)
  | .ok remaining =>
      if remaining ≤ 200 * 1000000 * state.attempt then
        .done (.error ⟨none, npmBudgetExceeded⟩)
      else .again state

/-- `max_attempts`. -/
def maxAttempts : Nat := 3

/-- What is done with a response; `attempt` has been counted already. -/
def onResponse (api : UrlApi Url Origin) (budget : Nat) (isTarball : Bool)
    (state : DownloadState Url) (turn : Turn) (response : Response) : Flow Url :=
  if response.status = 404 then .done (.ok .notFound)
  else if response.status = 304 then
    if state.etag.isSome then .done (.ok .notModified)
    else .done (.error ⟨some 304,
      "npm registry returned 304 without a conditional ETag request"⟩)
  else if response.isSuccess then .done (readResponse budget isTarball turn response)
  else if response.isRedirection then followRedirect api state response
  else if (response.status = 429 || response.isServerError) && state.attempt < maxAttempts then
    backoff turn state
  else .done (.error (statusError api response.status))

/-- What is done with the end of a send. -/
def onAnswer (api : UrlApi Url Origin) (budget : Nat) (isTarball : Bool)
    (state : DownloadState Url) (turn : Turn) : Flow Url :=
  match turn.answer with
  | .response response => onResponse api budget isTarball state turn response
  | .failed e =>
      if state.attempt < maxAttempts then backoff turn state
      else .done (.error ⟨none, s!"npm registry request failed: {e}"⟩)
  | .timedOut => .done (.error ⟨none, npmBudgetExceeded⟩)

/-- The requests sent, and the result if there is one yet. -/
structure Download (Url : Type) where
  exchanges : List (Exchange Url)
  result : Option (Except DownloadError NpmResponse)

/-- The loop, for as many turns as are given. -/
def downloadLoop (api : UrlApi Url Origin) (budget : Nat) (isTarball : Bool) :
    List Turn → DownloadState Url → Download Url
  | [], _ => ⟨[], none⟩
  | turn :: turns, state =>
      let state := { state with attempt := state.attempt + 1 }
      match remainingHttpBudget turn.left with
      | .error e => ⟨[], some (.error ⟨none, e⟩)⟩
      | .ok _ =>
          match onAnswer api budget isTarball state turn with
          | .done result => ⟨[⟨state.request, turn⟩], some result⟩
          | .again state' =>
              let rest := downloadLoop api budget isTarball turns state'
              ⟨⟨state.request, turn⟩ :: rest.exchanges, rest.result⟩

/-- The variables the loop starts with. -/
def DownloadState.initial (url : Url) (auth etag : Option String) : DownloadState Url where
  url := url
  auth := auth
  etag := etag
  attempt := 0
  redirectsRemaining := 10

/-- `download_with_retries_on_any_tokio_runtime`. -/
def download (api : UrlApi Url Origin) (budget : Nat) (url : Url)
    (maybeAuth maybeEtag : Option String) (maybeRegistryConfig : Option RegistryConfig)
    (turns : List Turn) : Download Url :=
  downloadLoop api budget (api.isTarball url) turns
    (.initial url (downloadAuth api maybeAuth maybeRegistryConfig) maybeEtag)

/-! ### What a pass can do -/

variable {api : UrlApi Url Origin} {budget : Nat} {isTarball : Bool}

omit [DecidableEq Url] in
theorem sameOrigin_inv {a b : Url} (h : api.sameOrigin a b = true) :
    api.origin a = api.origin b ∧ api.origin b ≠ none := by
  rw [UrlApi.sameOrigin] at h
  split at h
  · rename_i origin origin' ha hb
    have heq : origin = origin' := of_decide_eq_true h
    rw [ha, hb, heq]
    exact ⟨rfl, by simp⟩
  · cases h

/-- The loop goes on with a retry, which changes nothing, or with a redirect. -/
theorem onAnswer_again_inv {state next : DownloadState Url} {turn : Turn}
    (h : onAnswer api budget isTarball state turn = .again next) :
    (next = state ∧ state.attempt < maxAttempts) ∨
      (state.redirectsRemaining ≠ 0 ∧
        next.redirectsRemaining = state.redirectsRemaining - 1 ∧ next.attempt = 0 ∧
        next.auth = (if api.sameOrigin next.url state.url then state.auth else none) ∧
        next.etag = (if next.url = state.url then state.etag else none)) := by
  have hbackoff : ∀ {turn : Turn} {state next : DownloadState Url},
      backoff turn state = .again next → next = state := by
    intro turn state next h
    rw [backoff] at h
    split at h
    · cases h
    · split at h
      · cases h
      · cases h
        rfl
  rw [onAnswer] at h
  split at h
  · rename_i response _
    rw [onResponse] at h
    split at h
    · cases h
    · split at h
      · split at h <;> cases h
      · split at h
        · cases h
        · split at h
          · rw [followRedirect] at h
            split at h
            · cases h
            · rename_i hleft
              split at h
              · cases h
              · split at h
                · cases h
                · cases h
                  exact .inr ⟨hleft, rfl, rfl, rfl, rfl⟩
          · split at h
            · rename_i hretry
              simp only [Bool.and_eq_true, decide_eq_true_eq] at hretry
              exact .inl ⟨hbackoff h, hretry.2⟩
            · cases h
  · split at h
    · rename_i hretry
      exact .inl ⟨hbackoff h, hretry⟩
    · cases h
  · cases h

/-- A response the download ends with a body or with "not modified", seen from the result:
only a response can, and which one decides. -/
theorem onAnswer_ok_inv {state : DownloadState Url} {turn : Turn} {answer : NpmResponse}
    (h : onAnswer api budget isTarball state turn = .done (.ok answer)) :
    ∃ response, turn.answer = .response response ∧
      ((answer = .notFound ∧ response.status = 404) ∨
        (answer = .notModified ∧ response.status = 304 ∧ state.etag.isSome = true) ∨
        (response.isSuccess = true ∧
          readResponse budget isTarball turn response = .ok answer)) := by
  have hbackoff : ∀ {turn : Turn} {state : DownloadState Url},
      backoff turn state ≠ .done (.ok answer) := by
    intro turn state h
    rw [backoff] at h
    split at h
    · cases h
    · split at h <;> cases h
  rw [onAnswer] at h
  split at h
  · rename_i response hanswer
    refine ⟨response, hanswer, ?_⟩
    rw [onResponse] at h
    split at h
    · rename_i hstatus
      cases h
      exact .inl ⟨rfl, hstatus⟩
    · split at h
      · rename_i hstatus
        split at h
        · rename_i hetag
          cases h
          exact .inr (.inl ⟨rfl, hstatus, hetag⟩)
        · cases h
      · split at h
        · rename_i hsuccess
          injection h with h
          exact .inr (.inr ⟨hsuccess, h⟩)
        · split at h
          · rw [followRedirect] at h
            split at h
            · cases h
            · split at h
              · cases h
              · split at h <;> cases h
          · split at h
            · exact absurd h hbackoff
            · cases h
  · split at h
    · exact absurd h hbackoff
    · cases h
  · cases h

/-- Every success status ends the loop with the body's reading. -/
theorem onAnswer_success {state : DownloadState Url} {turn : Turn} {response : Response}
    (hanswer : turn.answer = .response response) (hsuccess : response.isSuccess = true) :
    onAnswer api budget isTarball state turn =
      .done (readResponse budget isTarball turn response) := by
  have hrange : 200 ≤ response.status ∧ response.status < 300 := by
    simpa [Response.isSuccess] using hsuccess
  rw [onAnswer, hanswer]
  show onResponse api budget isTarball state turn response = _
  rw [onResponse, if_neg (by omega), if_neg (by omega), if_pos hsuccess]

/-- A body that is returned passed the limit and the guard of its kind. -/
theorem readResponse_inv {turn : Turn} {response : Response} {bytes : List UInt8}
    {etag : Option String}
    (h : readResponse budget isTarball turn response = .ok (.bytes bytes etag)) :
    readBodyLimited (npmBodyLimit isTarball response.contentLength) response.chunks [] =
        .ok bytes ∧
      guardTarballIsize budget isTarball bytes = .ok bytes := by
  rw [readResponse] at h
  split at h
  · cases h
  · split at h
    · cases h
    · split at h
      · cases h
      · rename_i body hbody
        split at h
        · cases h
        · rename_i guarded hguard
          injection h with h
          injection h with hbytes _
          have hsame := (guardTarballIsize_inv hguard).1
          rw [← hbytes, hsame]
          rw [hsame] at hguard
          exact ⟨hbody, hguard⟩

theorem readResponse_ne_notModified {turn : Turn} {response : Response} :
    readResponse budget isTarball turn response ≠ .ok .notModified := by
  intro h
  rw [readResponse] at h
  split at h
  · cases h
  · split at h
    · cases h
    · split at h
      · cases h
      · split at h <;> cases h

/-! ### The loop goes on only from a retry or a redirect -/

/-- The first exchange of a run, and what comes after it. -/
theorem downloadLoop_cons {state : DownloadState Url} {turn : Turn} {turns : List Turn}
    {exchange : Exchange Url} {rest : List (Exchange Url)}
    (h : (downloadLoop api budget isTarball (turn :: turns) state).exchanges =
      exchange :: rest) :
    exchange.request = state.request ∧ exchange.turn = turn ∧
      ((rest = [] ∧ ∃ result,
          onAnswer api budget isTarball { state with attempt := state.attempt + 1 } turn =
            .done result ∧
          (downloadLoop api budget isTarball (turn :: turns) state).result = some result) ∨
        ∃ next,
          onAnswer api budget isTarball { state with attempt := state.attempt + 1 } turn =
            .again next ∧
          rest = (downloadLoop api budget isTarball turns next).exchanges ∧
          (downloadLoop api budget isTarball (turn :: turns) state).result =
            (downloadLoop api budget isTarball turns next).result) := by
  rw [downloadLoop] at h ⊢
  simp only at h ⊢
  split at h
  · cases h
  · split at h
    · rename_i result hdone
      obtain ⟨rfl, rfl⟩ := List.cons.inj h
      exact ⟨rfl, rfl, .inl ⟨rfl, result, hdone, rfl⟩⟩
    · rename_i next hagain
      obtain ⟨rfl, rfl⟩ := List.cons.inj h
      exact ⟨rfl, rfl, .inr ⟨next, hagain, rfl, rfl⟩⟩

/-- A run that sent nothing has no answer from the registry. -/
theorem downloadLoop_nil {state : DownloadState Url} {turns : List Turn}
    (h : (downloadLoop api budget isTarball turns state).exchanges = []) :
    (downloadLoop api budget isTarball turns state).result = none ∨
      (downloadLoop api budget isTarball turns state).result =
        some (.error ⟨none, httpBudgetExceeded⟩) := by
  cases turns with
  | nil => exact .inl rfl
  | cons turn turns =>
      rw [downloadLoop] at h ⊢
      simp only at h ⊢
      split at h
      · rename_i e hleft
        rw [remainingHttpBudget] at hleft
        split at hleft
        · rename_i hzero
          cases hleft
          exact .inr rfl
        · cases hleft
      · split at h <;> cases h

/-! ### Containment -/

/-- The state's credentials and ETag are those given, and still fit every URL visited:
the origin never changed while credentials are held, nor the URL while an ETag is. -/
structure Contained (api : UrlApi Url Origin) (url : Url) (auth etag : Option String)
    (past : List Url) (state : DownloadState Url) : Prop where
  auth : state.auth ≠ none → state.auth = auth ∧
    ∀ visited ∈ state.url :: past,
      api.origin visited = api.origin url ∧ (api.origin url = none → visited = url)
  etag : state.etag ≠ none → state.etag = etag ∧ ∀ visited ∈ state.url :: past, visited = url

omit [DecidableEq Url] [DecidableEq Origin] in
theorem Contained.initial (url : Url) (auth etag : Option String) :
    Contained api url auth etag [] (.initial url auth etag) := by
  constructor
  · intro _
    refine ⟨rfl, ?_⟩
    intro visited mem
    rw [List.mem_singleton.mp mem]
    exact ⟨rfl, fun _ => rfl⟩
  · intro _
    refine ⟨rfl, ?_⟩
    intro visited mem
    exact List.mem_singleton.mp mem

/-- The step lemma: one pass keeps the containment, the URL just visited being added to
the past. -/
theorem Contained.again {url : Url} {auth etag : Option String} {past : List Url}
    {state next : DownloadState Url} {turn : Turn}
    (inv : Contained api url auth etag past state)
    (h : onAnswer api budget isTarball { state with attempt := state.attempt + 1 } turn =
      .again next) :
    Contained api url auth etag (state.url :: past) next := by
  -- A retry of the same request, or a redirect.
  rcases onAnswer_again_inv h with ⟨rfl, _⟩ | ⟨_, _, _, hauth, hetag⟩
  · constructor
    · intro hheld
      obtain ⟨heq, hvisited⟩ := inv.auth hheld
      refine ⟨heq, ?_⟩
      intro visited mem
      rcases List.mem_cons.mp mem with rfl | mem
      · exact hvisited _ List.mem_cons_self
      · exact hvisited _ mem
    · intro hheld
      obtain ⟨heq, hvisited⟩ := inv.etag hheld
      refine ⟨heq, ?_⟩
      intro visited mem
      rcases List.mem_cons.mp mem with rfl | mem
      · exact hvisited _ List.mem_cons_self
      · exact hvisited _ mem
  · constructor
    · intro hheld
      rw [hauth] at hheld ⊢
      split at hheld
      · rename_i hsame
        -- What is sent on is sent to the origin that had it already.
        obtain ⟨hnext, hsome⟩ := sameOrigin_inv hsame
        obtain ⟨heq, hvisited⟩ := inv.auth hheld
        rw [if_pos hsame]
        refine ⟨heq, ?_⟩
        intro visited mem
        rcases List.mem_cons.mp mem with rfl | mem
        · have horigin := (hvisited _ List.mem_cons_self).1
          have hhere : api.origin state.url ≠ none := hsome
          rw [hnext]
          exact ⟨horigin, fun hnone => absurd (horigin.trans hnone) hhere⟩
        · exact hvisited _ mem
      · exact absurd rfl hheld
    · intro hheld
      rw [hetag] at hheld ⊢
      split at hheld
      · rename_i hsame
        obtain ⟨heq, hvisited⟩ := inv.etag hheld
        rw [if_pos hsame]
        refine ⟨heq, ?_⟩
        intro visited mem
        rcases List.mem_cons.mp mem with rfl | mem
        · rw [hsame]
          exact hvisited _ List.mem_cons_self
        · exact hvisited _ mem
      · exact absurd rfl hheld

/-- What containment says of one request after the requests before it. -/
structure RequestContained (api : UrlApi Url Origin) (url : Url) (auth etag : Option String)
    (past : List Url) (request : Request Url) : Prop where
  authorization : request.authorization ≠ none → request.authorization = auth ∧
    ∀ visited ∈ request.url :: past,
      api.origin visited = api.origin url ∧ (api.origin url = none → visited = url)
  ifNoneMatch : request.ifNoneMatch ≠ none → request.ifNoneMatch = etag ∧
    ∀ visited ∈ request.url :: past, visited = url

/-- The run lemma: every request of a run is contained. -/
theorem downloadLoop_contained {url : Url} {auth etag : Option String} {turns : List Turn}
    {state : DownloadState Url} {past : List Url}
    (inv : Contained api url auth etag past state)
    {before after : List (Exchange Url)} {exchange : Exchange Url}
    (h : (downloadLoop api budget isTarball turns state).exchanges =
      before ++ exchange :: after) :
    RequestContained api url auth etag (past ++ before.map (·.request.url))
      exchange.request := by
  induction turns generalizing state past before with
  | nil => cases before <;> cases h
  | cons turn turns ih =>
      cases before with
      | nil =>
          obtain ⟨hrequest, _, _⟩ := downloadLoop_cons h
          rw [hrequest, List.map_nil, List.append_nil]
          exact ⟨inv.auth, inv.etag⟩
      | cons first before =>
          obtain ⟨hrequest, _, ⟨hrest, _⟩ | ⟨next, hagain, hrest, _⟩⟩ := downloadLoop_cons h
          · simp at hrest
          · have hnext := ih (inv.again hagain) hrest.symm
            have hmem : ∀ visited ∈ past ++ (first :: before).map (·.request.url),
                visited ∈ (state.url :: past) ++ before.map (·.request.url) := by
              intro visited mem
              have hurl : first.request.url = state.url := by rw [hrequest]; rfl
              simp only [List.map_cons, List.mem_append, List.mem_cons, hurl] at mem ⊢
              tauto
            constructor
            · intro hheld
              obtain ⟨heq, hvisited⟩ := hnext.authorization hheld
              refine ⟨heq, ?_⟩
              intro visited mem
              rcases List.mem_cons.mp mem with rfl | mem
              · exact hvisited _ List.mem_cons_self
              · exact hvisited _ (List.mem_cons_of_mem _ (hmem _ mem))
            · intro hheld
              obtain ⟨heq, hvisited⟩ := hnext.ifNoneMatch hheld
              refine ⟨heq, ?_⟩
              intro visited mem
              rcases List.mem_cons.mp mem with rfl | mem
              · exact hvisited _ List.mem_cons_self
              · exact hvisited _ (List.mem_cons_of_mem _ (hmem _ mem))

/-! ### The final response -/

/-- A successful result is the answer to the last request sent. -/
theorem downloadLoop_ok_inv {turns : List Turn} {state : DownloadState Url}
    {answer : NpmResponse}
    (h : (downloadLoop api budget isTarball turns state).result = some (.ok answer)) :
    ∃ before exchange response,
      (downloadLoop api budget isTarball turns state).exchanges = before ++ [exchange] ∧
      exchange.turn.answer = .response response ∧
      ((answer = .notFound ∧ response.status = 404) ∨
        (answer = .notModified ∧ response.status = 304 ∧
          exchange.request.ifNoneMatch ≠ none) ∨
        (response.isSuccess = true ∧
          readResponse budget isTarball exchange.turn response = .ok answer)) := by
  induction turns generalizing state with
  | nil => cases h
  | cons turn turns ih =>
      cases hlog : (downloadLoop api budget isTarball (turn :: turns) state).exchanges with
      | nil =>
          rcases downloadLoop_nil hlog with hnone | herror
          · rw [hnone] at h
            cases h
          · rw [herror] at h
            cases h
      | cons exchange rest =>
          obtain ⟨hrequest, hturn, ⟨hrest, result, hdone, hresult⟩ |
            ⟨next, _, hrest, hresult⟩⟩ := downloadLoop_cons hlog
          · rw [hresult] at h
            injection h with h
            rw [h] at hdone
            obtain ⟨response, hanswer, hcases⟩ := onAnswer_ok_inv hdone
            refine ⟨[], exchange, response, by rw [hrest]; rfl, by rw [hturn]; exact hanswer, ?_⟩
            rw [hrequest, hturn]
            rcases hcases with hfound | ⟨hans, hstatus, hetag⟩ | hsuccess
            · exact .inl hfound
            · refine .inr (.inl ⟨hans, hstatus, ?_⟩)
              show state.etag ≠ none
              intro hnone
              simp [hnone] at hetag
            · exact .inr (.inr hsuccess)
          · rw [hresult] at h
            obtain ⟨before, last, response, hsplit, hlast⟩ := ih h
            refine ⟨exchange :: before, last, response, ?_, hlast⟩
            rw [hrest, hsplit]
            rfl

/-- A success status is the end of the loop, whatever came before. -/
theorem downloadLoop_success {turns : List Turn} {state : DownloadState Url}
    {before after : List (Exchange Url)} {exchange : Exchange Url} {response : Response}
    (h : (downloadLoop api budget isTarball turns state).exchanges =
      before ++ exchange :: after)
    (hanswer : exchange.turn.answer = .response response)
    (hsuccess : response.isSuccess = true) :
    after = [] ∧ (downloadLoop api budget isTarball turns state).result =
      some (readResponse budget isTarball exchange.turn response) := by
  induction turns generalizing state before with
  | nil => cases before <;> cases h
  | cons turn turns ih =>
      cases before with
      | nil =>
          obtain ⟨_, hturn, hcases⟩ := downloadLoop_cons h
          rw [hturn] at hanswer ⊢
          rcases hcases with ⟨hrest, result, hdone, hresult⟩ | ⟨next, hagain, _, _⟩
          · rw [onAnswer_success hanswer hsuccess] at hdone
            injection hdone with hdone
            rw [hresult, hdone]
            exact ⟨hrest, rfl⟩
          · rw [onAnswer_success hanswer hsuccess] at hagain
            cases hagain
      | cons first before =>
          obtain ⟨_, _, ⟨hrest, _⟩ | ⟨next, _, hrest, hresult⟩⟩ := downloadLoop_cons h
          · simp at hrest
          · rw [hresult]
            exact ih hrest.symm

/-! ### The loop ends -/

/-- How many requests the loop can still send. -/
def DownloadState.allowance (state : DownloadState Url) : Nat :=
  maxAttempts * state.redirectsRemaining + (maxAttempts - state.attempt)

/-- With a turn for every request it can send, the loop returns. -/
theorem downloadLoop_total {turns : List Turn} {state : DownloadState Url}
    (fresh : state.attempt < maxAttempts) (enough : state.allowance ≤ turns.length) :
    (downloadLoop api budget isTarball turns state).result ≠ none := by
  induction turns generalizing state with
  | nil =>
      simp only [DownloadState.allowance, List.length_nil] at enough
      omega
  | cons turn turns ih =>
      rw [downloadLoop]
      simp only
      split
      · simp
      · split
        · simp
        · rename_i next hagain
          simp only [DownloadState.allowance, List.length_cons, maxAttempts] at fresh enough
          rcases onAnswer_again_inv hagain with ⟨rfl, hless⟩ | ⟨hleft, hnext, hzero, _, _⟩
          · refine ih hless ?_
            simp only [DownloadState.allowance, maxAttempts] at hless ⊢
            omega
          · refine ih (by rw [hzero]; decide) ?_
            simp only [DownloadState.allowance, maxAttempts, hnext, hzero] at hleft ⊢
            omega

/-- A download returns after at most 33 requests, whatever the registry answers. -/
theorem download_total (url : Url) (maybeAuth maybeEtag : Option String)
    (maybeRegistryConfig : Option RegistryConfig) {turns : List Turn}
    (enough : 33 ≤ turns.length) :
    (download api budget url maybeAuth maybeEtag maybeRegistryConfig turns).result ≠ none := by
  refine downloadLoop_total (show 0 < maxAttempts by decide) ?_
  show 3 * 10 + (3 - 0) ≤ turns.length
  omega

/-- Whatever the registry answers: credentials go only to the origin of the original URL,
and only while no URL of another origin was visited; the ETag only to the original URL,
and only while no other was visited; "not modified" is the answer to a conditional
request; and the final body is held to the limit and the ISIZE guard of the original
URL's path. -/
theorem npm_download_contained (api : UrlApi Url Origin) (budget : Nat) (url : Url)
    (maybeAuth maybeEtag : Option String) (maybeRegistryConfig : Option RegistryConfig)
    (turns : List Turn) :
    let run := download api budget url maybeAuth maybeEtag maybeRegistryConfig turns
    (∀ before exchange after, run.exchanges = before ++ exchange :: after →
      (exchange.request.authorization ≠ none →
        exchange.request.authorization = downloadAuth api maybeAuth maybeRegistryConfig ∧
        ∀ visited ∈ exchange.request.url :: before.map (·.request.url),
          api.origin visited = api.origin url ∧ (api.origin url = none → visited = url)) ∧
      (exchange.request.ifNoneMatch ≠ none →
        exchange.request.ifNoneMatch = maybeEtag ∧
        ∀ visited ∈ exchange.request.url :: before.map (·.request.url), visited = url)) ∧
    (run.result = some (.ok .notModified) →
      ∃ before exchange response, run.exchanges = before ++ [exchange] ∧
        exchange.turn.answer = .response response ∧ response.status = 304 ∧
        exchange.request.ifNoneMatch ≠ none) ∧
    (∀ before exchange after response, run.exchanges = before ++ exchange :: after →
      exchange.turn.answer = .response response → response.isSuccess = true →
        after = [] ∧
        run.result = some (readResponse budget (api.isTarball url) exchange.turn response)) ∧
    (∀ bytes etag, run.result = some (.ok (.bytes bytes etag)) →
      ∃ before exchange response, run.exchanges = before ++ [exchange] ∧
        exchange.turn.answer = .response response ∧ response.isSuccess = true ∧
        readBodyLimited (npmBodyLimit (api.isTarball url) response.contentLength)
          response.chunks [] = .ok bytes ∧
        guardTarballIsize budget (api.isTarball url) bytes = .ok bytes) := by
  intro run
  refine ⟨?_, ?_, ?_, ?_⟩
  · intro before exchange after hlog
    have hcontained := downloadLoop_contained (Contained.initial url _ _) hlog
    rw [List.nil_append] at hcontained
    exact ⟨hcontained.authorization, hcontained.ifNoneMatch⟩
  · intro hresult
    obtain ⟨before, exchange, response, hlog, hanswer, hcases⟩ := downloadLoop_ok_inv hresult
    refine ⟨before, exchange, response, hlog, hanswer, ?_⟩
    rcases hcases with ⟨hans, _⟩ | ⟨_, hstatus, hetag⟩ | ⟨_, hread⟩
    · cases hans
    · exact ⟨hstatus, hetag⟩
    · exact absurd hread readResponse_ne_notModified
  · intro before exchange after response hlog hanswer hsuccess
    exact downloadLoop_success hlog hanswer hsuccess
  · intro bytes etag hresult
    obtain ⟨before, exchange, response, hlog, hanswer, hcases⟩ := downloadLoop_ok_inv hresult
    refine ⟨before, exchange, response, hlog, hanswer, ?_⟩
    rcases hcases with ⟨hans, _⟩ | ⟨hans, _, _⟩ | ⟨hsuccess, hread⟩
    · cases hans
    · cases hans
    · exact ⟨hsuccess, readResponse_inv hread⟩

/-- URLs as host and path, for a run that leaves the origin and is sent back to it. -/
def hostAndPath : UrlApi (String × String) String where
  path url := url.2
  origin url := some url.1
  join _ location := .ok (location, "/pkg.tgz")
  statusText status := toString status
  base64 text := text

/-- A redirect to the host of that name. -/
def redirectTo (host : String) : Turn where
  left := 1
  answer := .response ⟨302, some (host.toList.map fun c => UInt8.ofNat c.toNat), none, none, []⟩
  leftAfter := 1
  bodyInTime := true

example : (download hostAndPath 0 ("a", "/pkg.tgz") (some "Bearer t") (some "v1") none
      [redirectTo "a", redirectTo "b", redirectTo "a", redirectTo "a"]).exchanges.map (·.request) =
    [⟨("a", "/pkg.tgz"), some "Bearer t", some "v1"⟩,
      ⟨("a", "/pkg.tgz"), some "Bearer t", some "v1"⟩, ⟨("b", "/pkg.tgz"), none, none⟩,
      ⟨("a", "/pkg.tgz"), none, none⟩] := by
  decide

end Libdeno.Http
