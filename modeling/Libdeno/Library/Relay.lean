import Libdeno.Library.Channel
import Mathlib.Tactic.Common

/-!
# Libdeno.Library.Relay

**Relaying the start of an input.** A relay reads an input piece by piece and sends on a channel
what is within a limit. `Relaying` is what it maintains whatever its bookkeeping: what was read
and what is ahead make up the input, and the messages carry the clipped part of what was read.
The rules say how each kind of step keeps it: a piece within the limit is sent whole, the piece
that crosses it in part, and what comes later is dropped.
-/

namespace Relay

variable {α μ : Type*}

/-! ### Clipping -/

/-- What is retained under a limit. -/
def clip : Option ℕ → List α → List α
  | none, xs => xs
  | some max, xs => xs.take max

/-- Whether something is lost under a limit. -/
def exceeds : Option ℕ → List α → Bool
  | none, _ => false
  | some max, xs => decide (max < xs.length)

variable {limit : Option ℕ} {max : ℕ} {xs ys : List α}

@[simp] theorem clip_nil (limit : Option ℕ) : clip limit ([] : List α) = [] := by
  cases limit <;> simp [clip]

@[simp] theorem exceeds_nil (limit : Option ℕ) : exceeds limit ([] : List α) = false := by
  cases limit <;> simp [exceeds]

@[simp] theorem exceeds_none (xs : List α) : exceeds none xs = false := rfl

theorem exceeds_some : exceeds (some max) xs = decide (max < xs.length) := rfl

theorem exceeds_append (h : exceeds limit xs = true) (ys : List α) :
    exceeds limit (xs ++ ys) = true := by
  cases limit with
  | none => simp at h
  | some max =>
      simp [exceeds_some] at h ⊢
      omega

theorem clip_of_fits (h : exceeds limit xs = false) : clip limit xs = xs := by
  cases limit with
  | none => rfl
  | some max =>
      simp [exceeds_some] at h
      exact List.take_of_length_le h

/-- What comes after the limit was crossed is lost. -/
theorem clip_append_of_exceeds (h : exceeds limit xs = true) (ys : List α) :
    clip limit (xs ++ ys) = clip limit xs := by
  cases limit with
  | none => simp at h
  | some max =>
      simp [exceeds_some] at h
      exact List.take_append_of_le_length (by omega)

theorem clip_append_of_fits (h : exceeds limit (xs ++ ys) = false) :
    clip limit (xs ++ ys) = clip limit xs ++ ys := by
  have hxs : exceeds limit xs = false := by
    cases hx : exceeds limit xs with
    | false => rfl
    | true => rw [exceeds_append hx ys] at h; cases h
  rw [clip_of_fits h, clip_of_fits hxs]

/-- The room that is left takes the start of the next piece. -/
theorem clip_append (max : ℕ) (xs ys : List α) :
    clip (some max) (xs ++ ys) = clip (some max) xs ++ ys.take (max - xs.length) :=
  List.take_append

/-! ### Relaying -/

/-- Of an input, `seen` was read, `ahead` was not, and the messages carry what is retained. -/
structure Relaying (payload : μ → List α) (limit : Option ℕ) (input seen ahead : List α)
    (channel : Channel μ) : Prop where
  whole : seen ++ ahead = input
  carried : channel.sent.flatMap payload = clip limit seen

namespace Relaying

variable {payload : μ → List α} {input seen ahead rest piece : List α} {channel : Channel μ}
  {message : μ}

theorem start (payload : μ → List α) (limit : Option ℕ) (input : List α) :
    Relaying payload limit input [] input Channel.empty :=
  { whole := rfl, carried := by simp }

/-- A piece of which the message carries what still fits. -/
theorem send (h : Relaying payload limit input seen ahead channel) (read : ahead = piece ++ rest)
    (fits : clip limit (seen ++ piece) = clip limit seen ++ payload message) :
    Relaying payload limit input (seen ++ piece) rest (channel.push message) := by
  refine { whole := ?_, carried := ?_ }
  · rw [← h.whole, read, List.append_assoc]
  · simp [h.carried, fits]

/-- A piece of which nothing fits. -/
theorem skip (h : Relaying payload limit input seen ahead channel) (read : ahead = piece ++ rest)
    (full : clip limit (seen ++ piece) = clip limit seen) :
    Relaying payload limit input (seen ++ piece) rest channel := by
  refine { whole := ?_, carried := ?_ }
  · rw [← h.whole, read, List.append_assoc]
  · rw [h.carried, full]

/-- A message that carries no data. -/
theorem mark (h : Relaying payload limit input seen ahead channel) (empty : payload message = []) :
    Relaying payload limit input seen ahead (channel.push message) :=
  { whole := h.whole, carried := by simp [h.carried, empty] }

/-- Receiving changes nothing. -/
theorem receive {channel' : Channel μ} (h : Relaying payload limit input seen ahead channel)
    (sent : channel'.sent = channel.sent) : Relaying payload limit input seen ahead channel' :=
  { whole := h.whole, carried := by rw [sent, h.carried] }

/-- At the end of the input the messages carry its retained part. -/
theorem carried_input (h : Relaying payload limit input seen [] channel) :
    channel.sent.flatMap payload = clip limit input ∧ seen = input := by
  have hseen : seen = input := by simpa using h.whole
  exact ⟨by rw [h.carried, hseen], hseen⟩

end Relaying

/-! ### The last message -/

/-- A receiver that finds nothing has received everything. -/
theorem inFlight_of_pop {channel : Channel μ} (h : channel.pop = none) :
    channel.inFlight = [] := by
  unfold Channel.pop at h
  split at h
  · assumption
  · cases h

/-- Where the only message of its kind is the last one and was delivered, all were. -/
theorem delivered_of_last {channel : Channel μ} {front : List μ} {last : μ} {p : μ → Prop}
    (sent : channel.sent = front ++ [last]) (only : ∀ m ∈ front, ¬ p m)
    (delivered : ∃ m ∈ channel.delivered, p m) : channel.delivered = channel.sent := by
  obtain ⟨m, hm, hp⟩ := delivered
  -- either nothing is in flight, or all that was delivered is part of `front`
  rcases List.eq_nil_or_concat channel.inFlight with hflight | ⟨flying, x, hflight⟩
  · simp [Channel.sent, hflight]
  · have hfront : channel.delivered ++ flying = front := by
      rw [Channel.sent, hflight, List.concat_eq_append, ← List.append_assoc] at sent
      exact (List.append_inj' sent rfl).1
    exact absurd hp (only m (hfront ▸ List.mem_append_left _ hm))

end Relay
