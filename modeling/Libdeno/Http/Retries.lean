import Libdeno.Library.BoundedLoop
import Libdeno.Http.NpmDownload

/-!
# Libdeno.Http.Retries

The two request loops of `http.rs` on a clock: the npm download, which retries and follows
redirects, and `send_no_follow`, which retries only. Each pass sends one request; a redirect
starts the count of attempts anew. What is started, and when, is recorded: the instant of a
request, a body read or a sleep is the one of the clock reading its budget was computed from.

The environment is endless and free: it says for every pass what the clock reads at its two
checks and how the request ends. Both loops end in it, since what is left of the redirects and
then of the attempts shrinks with every pass that goes on.
-/

namespace Libdeno.Http

open BoundedLoop

/-! ### The clock -/

/-- `HTTP_RETRY_WALL_CLOCK_BUDGET`, in nanoseconds. -/
def httpRetryWallClockBudget : Nat := 300 * 1000000000

/-- What happens during one pass: the clock at the check before the request, how the request
ends, the clock at the check behind it, and whether a body arrives within the budget. -/
structure Moment where
  now : Nat
  answer : Answer
  nowAfter : Nat
  bodyInTime : Bool

/-- `deadline.saturating_duration_since(Instant::now())`, at both checks. -/
def Moment.turn (deadline : Nat) (moment : Moment) : Turn where
  left := deadline - moment.now
  answer := moment.answer
  leftAfter := deadline - moment.nowAfter
  bodyInTime := moment.bodyInTime

/-- What a loop starts, and when. -/
inductive Event where
  | request (time : Nat)
  | bodyRead (time : Nat)
  | sleep (time delay : Nat)
  deriving DecidableEq, Repr

def Event.isRequest : Event → Bool
  | request _ => true
  | bodyRead _ | sleep _ _ => false

/-- An event starts before the deadline; a sleep is shorter than what is left. -/
def Event.InTime (deadline : Nat) : Event → Prop
  | request time | bodyRead time => time < deadline
  | sleep time delay => time < deadline ∧ delay < deadline - time

/-- The body read of a pass, if there is budget for it. -/
def bodyEvents (deadline : Nat) (moment : Moment) : List Event :=
  match remainingHttpBudget (deadline - moment.nowAfter) with
  | .error _ => []
  | .ok _ => [.bodyRead moment.nowAfter]

/-- The sleep before a retry, if there is budget for it. -/
def sleepEvents (deadline : Nat) (moment : Moment) (attempt : Nat) : List Event :=
  match remainingHttpBudget (deadline - moment.nowAfter) with
  | .error _ => []
  | .ok remaining =>
      let delay := 200 * 1000000 * attempt
      if remaining ≤ delay then [] else [.sleep moment.nowAfter delay]

theorem remainingHttpBudget_ok {left remaining : Nat}
    (h : remainingHttpBudget left = .ok remaining) : remaining = left ∧ 0 < left := by
  rw [remainingHttpBudget] at h
  split_ifs at h with hzero
  exact ⟨(Except.ok.inj h).symm, Nat.pos_of_ne_zero hzero⟩

theorem bodyEvents_inTime {deadline : Nat} {moment : Moment} :
    ∀ event ∈ bodyEvents deadline moment, event.isRequest = false ∧ event.InTime deadline := by
  rw [bodyEvents]
  cases h : remainingHttpBudget (deadline - moment.nowAfter) with
  | error e => simp
  | ok remaining =>
      have hleft := (remainingHttpBudget_ok h).2
      simp only [List.forall_mem_singleton]
      exact ⟨rfl, by show moment.nowAfter < deadline; omega⟩

theorem sleepEvents_inTime {deadline : Nat} {moment : Moment} {attempt : Nat} :
    ∀ event ∈ sleepEvents deadline moment attempt,
      event.isRequest = false ∧ event.InTime deadline := by
  rw [sleepEvents]
  cases h : remainingHttpBudget (deadline - moment.nowAfter) with
  | error e => simp
  | ok remaining =>
      obtain ⟨rfl, hleft⟩ := remainingHttpBudget_ok h
      simp only
      split_ifs with hlong
      · simp
      · simp only [List.forall_mem_singleton]
        refine ⟨rfl, ?_, not_le.mp hlong⟩
        show moment.nowAfter < deadline
        omega

/-- A pass that sends its request in time starts everything else in time, and sends it once. -/
structure PassInTime (deadline : Nat) (events : List Event) : Prop where
  inTime : ∀ event ∈ events, event.InTime deadline
  requests : events.countP Event.isRequest ≤ 1

theorem PassInTime.nil (deadline : Nat) : PassInTime deadline [] := ⟨by simp, by simp⟩

theorem PassInTime.cons {deadline now : Nat} {events : List Event} (left : 0 < deadline - now)
    (h : ∀ event ∈ events, event.isRequest = false ∧ event.InTime deadline) :
    PassInTime deadline (.request now :: events) := by
  constructor
  · refine List.forall_mem_cons.mpr ⟨?_, fun event mem => (h event mem).2⟩
    show now < deadline
    omega
  · have hnone : events.countP Event.isRequest = 0 := by
      rw [List.countP_eq_zero]
      intro event mem
      rw [(h event mem).1]
      decide
    rw [List.countP_cons, hnone]
    split <;> decide

/-- A run of so many passes, which sends no more requests and starts nothing too late. -/
structure BoundedRun {ρ : Type} (deadline n : Nat) (run : Outcome Event ρ) : Prop where
  passes : run.passes ≤ n
  requests : run.events.countP Event.isRequest ≤ n
  inTime : ∀ event ∈ run.events, event.InTime deadline

/-- A loop whose passes are in time is bounded by its rank. -/
theorem BoundedRun.of_pass {σ ρ : Type} (loop : Loop σ Moment Event ρ) {deadline : Nat}
    (h : ∀ s t, PassInTime deadline (loop.pass s t).1) (env : Nat → Moment) (i : Nat) (s : σ) :
    BoundedRun deadline (loop.rank s + 1) (loop.run env i s) where
  passes := Loop.passes_le i s
  requests := Loop.countP_le_rank (fun s t => (h s t).requests) i s
  inTime := Loop.forall_events (fun s t => (h s t).inTime) i s

/-! ### The npm download -/

section Download

variable {Url Origin : Type} [DecidableEq Url] [DecidableEq Origin]
variable (api : UrlApi Url Origin) (budget : Nat) (isTarball : Bool) (deadline : Nat)

/-- `onResponse`, with what it starts. -/
def traceResponse (state : DownloadState Url) (moment : Moment) (response : Response) :
    List Event × Flow Url :=
  if response.status = 404 then ([], .done (.ok .notFound))
  else if response.status = 304 then
    ([], if state.etag.isSome then .done (.ok .notModified)
      else .done (.error ⟨some 304,
        "npm registry returned 304 without a conditional ETag request"⟩))
  else if response.isSuccess then
    (bodyEvents deadline moment,
      .done (readResponse budget isTarball (moment.turn deadline) response))
  else if response.isRedirection then ([], followRedirect api state response)
  else if (response.status = 429 || response.isServerError) && state.attempt < maxAttempts then
    (sleepEvents deadline moment state.attempt, backoff (moment.turn deadline) state)
  else ([], .done (.error (statusError api response.status)))

/-- `onAnswer`, with what it starts. -/
def traceAnswer (state : DownloadState Url) (moment : Moment) : List Event × Flow Url :=
  match moment.answer with
  | .response response => traceResponse api budget isTarball deadline state moment response
  | .failed e =>
      if state.attempt < maxAttempts then
        (sleepEvents deadline moment state.attempt, backoff (moment.turn deadline) state)
      else ([], .done (.error ⟨none, s!"npm registry request failed: {e}"⟩))
  | .timedOut => ([], .done (.error ⟨none, npmBudgetExceeded⟩))

/-- One pass of the download. -/
def downloadPass (state : DownloadState Url) (moment : Moment) :
    List Event × (DownloadState Url ⊕ Except DownloadError NpmResponse) :=
  let state := { state with attempt := state.attempt + 1 }
  match remainingHttpBudget (deadline - moment.now) with
  | .error e => ([], .inr (.error ⟨none, e⟩))
  | .ok _ =>
      match traceAnswer api budget isTarball deadline state moment with
      | (events, .again next) => (.request moment.now :: events, .inl next)
      | (events, .done result) => (.request moment.now :: events, .inr result)

theorem traceAnswer_flow (state : DownloadState Url) (moment : Moment) :
    (traceAnswer api budget isTarball deadline state moment).2 =
      onAnswer api budget isTarball state (moment.turn deadline) := by
  have hanswer : (moment.turn deadline).answer = moment.answer := rfl
  rw [traceAnswer, onAnswer, hanswer]
  cases moment.answer with
  | response response =>
      simp only [traceResponse, onResponse]
      split_ifs <;> rfl
  | failed e =>
      simp only
      split_ifs <;> rfl
  | timedOut => rfl

theorem traceAnswer_inTime (state : DownloadState Url) (moment : Moment) :
    ∀ event ∈ (traceAnswer api budget isTarball deadline state moment).1,
      event.isRequest = false ∧ event.InTime deadline := by
  rw [traceAnswer]
  cases moment.answer with
  | response response =>
      simp only [traceResponse]
      split_ifs <;> first | exact bodyEvents_inTime | exact sleepEvents_inTime | simp
  | failed e =>
      simp only
      split_ifs <;> first | exact sleepEvents_inTime | simp
  | timedOut => simp

theorem downloadPass_inTime (state : DownloadState Url) (moment : Moment) :
    PassInTime deadline (downloadPass api budget isTarball deadline state moment).1 := by
  rw [downloadPass]
  cases hleft : remainingHttpBudget (deadline - moment.now) with
  | error e => exact .nil deadline
  | ok remaining =>
      have hevents := traceAnswer_inTime api budget isTarball deadline
        { state with attempt := state.attempt + 1 } moment
      generalize traceAnswer api budget isTarball deadline
        { state with attempt := state.attempt + 1 } moment = traced at hevents
      obtain ⟨events, flow⟩ := traced
      cases flow <;> exact .cons (remainingHttpBudget_ok hleft).2 hevents

/-- A pass goes on where the loop of the download does. -/
theorem downloadPass_again {state next : DownloadState Url} {moment : Moment}
    {events : List Event}
    (h : downloadPass api budget isTarball deadline state moment = (events, .inl next)) :
    (∃ remaining, remainingHttpBudget (deadline - moment.now) = .ok remaining) ∧
      onAnswer api budget isTarball { state with attempt := state.attempt + 1 }
        (moment.turn deadline) = .again next := by
  rw [← traceAnswer_flow]
  rw [downloadPass] at h
  cases hleft : remainingHttpBudget (deadline - moment.now) with
  | error e =>
      rw [hleft] at h
      cases h
  | ok remaining =>
      rw [hleft] at h
      simp only at h
      split at h
      · rename_i htraced
        obtain ⟨-, hnext⟩ := Prod.mk.inj h
        rw [htraced]
        exact ⟨⟨remaining, rfl⟩, by rw [Sum.inl.inj hnext]⟩
      · cases h

/-- A pass returns where the loop of the download does. -/
theorem downloadPass_return {state : DownloadState Url} {moment : Moment} {events : List Event}
    {result : Except DownloadError NpmResponse}
    (h : downloadPass api budget isTarball deadline state moment = (events, .inr result)) :
    (∃ e, remainingHttpBudget (deadline - moment.now) = .error e ∧ result = .error ⟨none, e⟩) ∨
      (∃ remaining, remainingHttpBudget (deadline - moment.now) = .ok remaining) ∧
        onAnswer api budget isTarball { state with attempt := state.attempt + 1 }
          (moment.turn deadline) = .done result := by
  rw [← traceAnswer_flow]
  rw [downloadPass] at h
  cases hleft : remainingHttpBudget (deadline - moment.now) with
  | error e =>
      rw [hleft] at h
      exact .inl ⟨e, rfl, (Sum.inr.inj (Prod.mk.inj h).2).symm⟩
  | ok remaining =>
      rw [hleft] at h
      simp only at h
      split at h
      · cases h
      · rename_i htraced
        obtain ⟨-, hresult⟩ := Prod.mk.inj h
        rw [htraced]
        exact .inr ⟨⟨remaining, rfl⟩, by rw [Sum.inr.inj hresult]⟩

/-- What is left of the redirects, then of the attempts. -/
def DownloadState.rank (state : DownloadState Url) : Nat :=
  3 * state.redirectsRemaining + (2 - state.attempt)

/-- The loop of `download_with_retries_on_any_tokio_runtime`. -/
def downloadTimed : Loop (DownloadState Url) Moment Event (Except DownloadError NpmResponse) where
  pass := downloadPass api budget isTarball deadline
  rank := DownloadState.rank
  decreases := by
    intro state moment events next h
    rw [DownloadState.rank, DownloadState.rank]
    rcases onAnswer_again_inv (downloadPass_again api budget isTarball deadline h).2 with
      ⟨rfl, hattempt⟩ | ⟨hleft, hredirects, hattempt, -⟩
    · -- A retry: one attempt less.
      have hmax : state.attempt + 1 < 3 := hattempt
      show 3 * state.redirectsRemaining + (2 - (state.attempt + 1)) < _
      omega
    · -- A redirect: all attempts again, but one redirect less.
      have hpos : state.redirectsRemaining ≠ 0 := hleft
      have hnext : next.redirectsRemaining = state.redirectsRemaining - 1 := hredirects
      omega

variable {api budget isTarball deadline}

/-- The loop on the clock is the loop on what is left of the budget. -/
theorem downloadTimed_result (env : Nat → Moment) (i : Nat) (state : DownloadState Url) :
    ∀ n, state.rank < n →
      (downloadLoop api budget isTarball
        ((List.range' i n).map fun k => (env k).turn deadline) state).result =
        some ((downloadTimed api budget isTarball deadline).run env i state).result := by
  induction i, state using (downloadTimed api budget isTarball deadline).run_induction env
  with
  | back i state ih =>
      intro n hn
      obtain ⟨n, rfl⟩ := Nat.exists_eq_succ_of_ne_zero (by omega : n ≠ 0)
      rw [List.range'_succ, List.map_cons, downloadLoop]
      have hleft : ((env i).turn deadline).left = deadline - (env i).now := rfl
      rcases hpass : (downloadTimed api budget isTarball deadline).pass state (env i) with
        ⟨events, next | result⟩
      · rw [Loop.run_of_again hpass]
        obtain ⟨⟨remaining, hremaining⟩, hagain⟩ :=
          downloadPass_again api budget isTarball deadline hpass
        have hrank := (downloadTimed api budget isTarball deadline).decreases hpass
        have hrest := ih events next hpass n (by
          have hnext : next.rank < state.rank := hrank
          omega)
        simp only [hleft, hremaining, hagain]
        exact hrest
      · rw [Loop.run_of_return hpass]
        rcases downloadPass_return api budget isTarball deadline hpass with
          ⟨e, hspent, rfl⟩ | ⟨⟨remaining, hremaining⟩, hdone⟩
        · simp only [hleft, hspent]
        · simp only [hleft, hremaining, hdone]

end Download

/-! ### The module fetch -/

/-- `SendResponse`. -/
inductive SendResponse where
  | notModified
  | redirect (location : Option (List UInt8))
  | success (response : Response) (body : List UInt8)

/-- `SendError`. -/
inductive SendError where
  | failed (message : String)
  | notFound
  | statusCode (status : Nat)

section Send

variable (conditional : Bool) (deadline : Nat)

/-- The answer to a success status. -/
def readModule (moment : Moment) (response : Response) : Except SendError SendResponse :=
  match remainingHttpBudget (deadline - moment.nowAfter) with
  | .error e => .error (.failed e)
  | .ok _ =>
      if !moment.bodyInTime then .error (.failed httpBudgetExceeded)
      else
        match readBodyLimited maxResponseBodyBytes response.chunks [] with
        | .error e => .error (.failed e)
        | .ok body => .ok (.success response body)

/-- The wait before a retry; the state is the number of attempts made. -/
def sendBackoff (moment : Moment) (attempt : Nat) :
    List Event × (Nat ⊕ Except SendError SendResponse) :=
  (sleepEvents deadline moment attempt,
    match remainingHttpBudget (deadline - moment.nowAfter) with
    | .error e => .inr (.error (.failed e))
    | .ok remaining =>
        if remaining ≤ 200 * 1000000 * attempt then .inr (.error (.failed httpBudgetExceeded))
        else .inl attempt)

/-- What is done with a response; `conditional` tells that the request had an `If-None-Match`. -/
def sendResponse (moment : Moment) (attempt : Nat) (response : Response) :
    List Event × (Nat ⊕ Except SendError SendResponse) :=
  if response.status = 304 then
    ([], .inr (if conditional then .ok .notModified else .error (.statusCode 304)))
  else if response.isRedirection then ([], .inr (.ok (.redirect response.location)))
  else if response.isSuccess then
    (bodyEvents deadline moment, .inr (readModule deadline moment response))
  else if response.status = 404 then ([], .inr (.error .notFound))
  else if (response.status = 429 || response.isServerError) && attempt < maxAttempts then
    sendBackoff deadline moment attempt
  else ([], .inr (.error (.statusCode response.status)))

/-- What is done with the end of a send. -/
def sendAnswer (moment : Moment) (attempt : Nat) :
    List Event × (Nat ⊕ Except SendError SendResponse) :=
  match moment.answer with
  | .response response => sendResponse conditional deadline moment attempt response
  | .failed e =>
      if attempt < maxAttempts then sendBackoff deadline moment attempt
      else ([], .inr (.error (.failed e)))
  | .timedOut => ([], .inr (.error (.failed httpBudgetExceeded)))

/-- One pass of `send_no_follow`. -/
def sendPass (attempt : Nat) (moment : Moment) :
    List Event × (Nat ⊕ Except SendError SendResponse) :=
  let attempt := attempt + 1
  match remainingHttpBudget (deadline - moment.now) with
  | .error e => ([], .inr (.error (.failed e)))
  | .ok _ =>
      let after := sendAnswer conditional deadline moment attempt
      (.request moment.now :: after.1, after.2)

theorem sendAnswer_inTime (moment : Moment) (attempt : Nat) :
    ∀ event ∈ (sendAnswer conditional deadline moment attempt).1,
      event.isRequest = false ∧ event.InTime deadline := by
  rw [sendAnswer]
  cases moment.answer with
  | response response =>
      simp only [sendResponse, sendBackoff]
      split_ifs <;> first | exact bodyEvents_inTime | exact sleepEvents_inTime | simp
  | failed e =>
      simp only [sendBackoff]
      split_ifs <;> first | exact sleepEvents_inTime | simp
  | timedOut => simp

theorem sendPass_inTime (attempt : Nat) (moment : Moment) :
    PassInTime deadline (sendPass conditional deadline attempt moment).1 := by
  rw [sendPass]
  cases hleft : remainingHttpBudget (deadline - moment.now) with
  | error e => exact .nil deadline
  | ok remaining =>
      exact .cons (remainingHttpBudget_ok hleft).2 (sendAnswer_inTime conditional deadline _ _)

/-- A pass goes on with one attempt more, of which there are three. -/
theorem sendPass_again {attempt next : Nat} {moment : Moment} {events : List Event}
    (h : sendPass conditional deadline attempt moment = (events, .inl next)) :
    next = attempt + 1 ∧ attempt + 1 < maxAttempts := by
  have hbackoff : ∀ attempt, (sendBackoff deadline moment attempt).2 = .inl next →
      next = attempt := by
    intro attempt h
    simp only [sendBackoff] at h
    split at h
    · cases h
    · split_ifs at h
      exact (Sum.inl.inj h).symm
  rw [sendPass] at h
  cases hleft : remainingHttpBudget (deadline - moment.now) with
  | error e =>
      rw [hleft] at h
      cases h
  | ok remaining =>
      rw [hleft] at h
      have hafter : (sendAnswer conditional deadline moment (attempt + 1)).2 = .inl next :=
        (Prod.mk.inj h).2
      rw [sendAnswer] at hafter
      -- Only two answers are tried again, both under the guard on the attempts.
      cases hanswer : moment.answer with
      | response response =>
          rw [hanswer] at hafter
          simp only [sendResponse] at hafter
          split_ifs at hafter with hconditional hredirect hsuccess hmissing hretry
          simp only [Bool.and_eq_true, decide_eq_true_eq] at hretry
          exact ⟨hbackoff _ hafter, hretry.2⟩
      | failed e =>
          rw [hanswer] at hafter
          simp only at hafter
          split_ifs at hafter with hretry
          exact ⟨hbackoff _ hafter, hretry⟩
      | timedOut =>
          rw [hanswer] at hafter
          cases hafter

/-- The loop of `send_no_follow`. -/
def sendNoFollow : Loop Nat Moment Event (Except SendError SendResponse) where
  pass := sendPass conditional deadline
  rank attempt := 2 - attempt
  decreases := by
    intro attempt moment events next h
    obtain ⟨rfl, hmax⟩ := sendPass_again conditional deadline h
    have : attempt + 1 < 3 := hmax
    omega

end Send

/-! ### Both loops -/

/-- `Instant::now() + HTTP_RETRY_WALL_CLOCK_BUDGET`. -/
def deadlineOf (start : Nat) : Nat := start + httpRetryWallClockBudget

/-- `download_with_retries_on_any_tokio_runtime`, started at an instant. -/
def downloadFrom {Url Origin : Type} [DecidableEq Url] [DecidableEq Origin]
    (api : UrlApi Url Origin) (budget : Nat) (url : Url) (maybeAuth maybeEtag : Option String)
    (maybeRegistryConfig : Option RegistryConfig) (start : Nat) (env : Nat → Moment) :
    Outcome Event (Except DownloadError NpmResponse) :=
  (downloadTimed api budget (api.isTarball url) (deadlineOf start)).run env 0
    (.initial url (downloadAuth api maybeAuth maybeRegistryConfig) maybeEtag)

/-- `send_no_follow`, started at an instant. -/
def sendNoFollowFrom (conditional : Bool) (start : Nat) (env : Nat → Moment) :
    Outcome Event (Except SendError SendResponse) :=
  (sendNoFollow conditional (deadlineOf start)).run env 0 0

/-- The download on the clock returns what it returns on 33 turns. -/
theorem downloadFrom_result {Url Origin : Type} [DecidableEq Url] [DecidableEq Origin]
    (api : UrlApi Url Origin) (budget : Nat) (url : Url) (maybeAuth maybeEtag : Option String)
    (maybeRegistryConfig : Option RegistryConfig) (start : Nat) (env : Nat → Moment) :
    (download api budget url maybeAuth maybeEtag maybeRegistryConfig
      ((List.range' 0 33).map fun k => (env k).turn (deadlineOf start))).result =
      some (downloadFrom api budget url maybeAuth maybeEtag maybeRegistryConfig start env).result :=
  downloadTimed_result env 0 _ 33 (show 3 * 10 + (2 - 0) < 33 by decide)

/-- **Retries are bounded.** In every endless environment, and whenever the loops start: the
download sends at most `(10 + 1) * 3` requests and a module fetch at most 3, in as many passes;
and every request, body read and sleep starts before the deadline, a sleep only where it is
shorter than the time left. -/
theorem retries_bounded {Url Origin : Type} [DecidableEq Url] [DecidableEq Origin]
    (api : UrlApi Url Origin) (budget : Nat) (url : Url) (maybeAuth maybeEtag : Option String)
    (maybeRegistryConfig : Option RegistryConfig) (conditional : Bool) (start : Nat)
    (env : Nat → Moment) :
    BoundedRun (deadlineOf start) ((10 + 1) * 3)
        (downloadFrom api budget url maybeAuth maybeEtag maybeRegistryConfig start env) ∧
      BoundedRun (deadlineOf start) 3 (sendNoFollowFrom conditional start env) := by
  constructor
  · exact .of_pass (downloadTimed api budget (api.isTarball url) (deadlineOf start))
      (downloadPass_inTime api budget _ _) env 0
      (.initial url (downloadAuth api maybeAuth maybeRegistryConfig) maybeEtag)
  · exact .of_pass (sendNoFollow conditional (deadlineOf start))
      (sendPass_inTime conditional _) env 0 0

end Libdeno.Http
