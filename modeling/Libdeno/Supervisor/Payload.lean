import Libdeno.Supervisor.Frame
import Libdeno.Supervisor.Terminal

/-!
# Libdeno.Supervisor.Payload

Frame payloads are JSON values. The serialiser itself (`serde_json`) is not part
of the repository, so it is a parameter: `SerdeJson α` is its pair of entry
points at the type `α`, and `SerdeJson.Faithful` states the one thing the
protocol relies on, that a value which was serialised deserialises to itself. The
size checks around the two calls are the repository's own.
-/

namespace Libdeno.Supervisor

/-- `serde_json::to_vec` and `serde_json::from_slice` at one type. -/
structure SerdeJson (α : Type) where
  toVec : α → Except String (List UInt8)
  fromSlice : List UInt8 → Except String α

/-- What was serialised deserialises to itself, and a protocol value always
serialises to a payload within the frame bound. -/
structure SerdeJson.Faithful {α : Type} (json : SerdeJson α) (sent : α → Prop) : Prop where
  serializes : ∀ value, sent value →
    ∃ payload, json.toVec value = .ok payload ∧ payload.length ≤ maxSupervisorFramePayload
  round_trip : ∀ value payload, sent value → json.toVec value = .ok payload →
    json.fromSlice payload = .ok value

variable {α : Type}

/-- `encode_payload`. -/
def encodePayload (json : SerdeJson α) (value : α) : Except IoError (List UInt8) :=
  match json.toVec value with
  | .error error => .error (invalidData ("invalid supervisor payload: " ++ error))
  | .ok payload =>
      if payload.length > maxSupervisorFramePayload then
        .error (invalidData "supervisor payload is too large")
      else
        .ok payload

/-- `decode_payload`. -/
def decodePayload (json : SerdeJson α) (payload : List UInt8) : Except IoError α :=
  if payload.length > maxSupervisorFramePayload then
    .error (invalidData "supervisor payload is too large")
  else
    match json.fromSlice payload with
    | .error error => .error (invalidData ("invalid supervisor payload: " ++ error))
    | .ok value => .ok value

/-- An encoded payload fits into a frame. -/
theorem encodePayload_length {json : SerdeJson α} {value : α} {payload : List UInt8}
    (h : encodePayload json value = .ok payload) :
    payload.length ≤ maxSupervisorFramePayload := by
  unfold encodePayload at h
  split at h
  · contradiction
  · split at h
    · contradiction
    · obtain rfl := Except.ok.inj h
      omega

/-- Decoding inverts encoding on the values the serialiser is faithful to. -/
theorem decodePayload_encodePayload {json : SerdeJson α} {sent : α → Prop}
    (faithful : json.Faithful sent) {value : α} (hv : sent value) {payload : List UInt8}
    (h : encodePayload json value = .ok payload) :
    decodePayload json payload = .ok value := by
  have fits := encodePayload_length h
  unfold encodePayload at h
  split at h
  · contradiction
  · next p hp =>
    split at h
    · contradiction
    · obtain rfl := Except.ok.inj h
      rw [decodePayload, if_neg (Nat.not_lt.mpr fits), faithful.round_trip _ _ hv hp]

/-- Every value the serialiser is faithful to has an encoding. -/
theorem encodePayload_ok {json : SerdeJson α} {sent : α → Prop}
    (faithful : json.Faithful sent) {value : α} (hv : sent value) :
    ∃ payload, encodePayload json value = .ok payload := by
  obtain ⟨payload, hp, fits⟩ := faithful.serializes value hv
  exact ⟨payload, by rw [encodePayload, hp]; exact if_neg (Nat.not_lt.mpr fits)⟩

end Libdeno.Supervisor
