import Libdeno.Library.Hex
import Libdeno.Supervisor.Frame

/-!
# Libdeno.Supervisor.Token

The texts of the tokens (token.rs, supervisor.rs): the hexadecimal form in which a token crosses
the environment of a child, and the comparison without an early exit.

A supervised child gets its token as text and proves it knows it by sending the bytes; the text
determines the token, whatever the case of its letters (`supervisor_token_text`).
-/

namespace Libdeno.Supervisor

/-! ### `token.rs` -/

/-- `random_hex`, of the bytes the system has given. -/
def randomHex (buffer : List UInt8) : List UInt8 := Hex.encode buffer

/-- `constant_time_eq`: an empty candidate never matches. -/
def constantTimeEq (candidate expected : List UInt8) : Bool :=
  if candidate.isEmpty then false
  else
    let difference : UInt8 := if candidate.length ≠ expected.length then 1 else 0
    (List.range expected.length).foldl
      (fun difference index =>
        difference ||| (expected.getD index 0 ^^^ candidate.getD index 0))
      difference == 0

/-- The comparison accepts exactly the expected text, unless that is empty. -/
theorem constantTimeEq_iff (candidate expected : List UInt8) :
    constantTimeEq candidate expected = true ↔ candidate ≠ [] ∧ candidate = expected := by
  unfold constantTimeEq
  cases hempty : candidate.isEmpty with
  | true => simp_all
  | false =>
      have hne : candidate ≠ [] := by simpa using hempty
      simp only [Bool.false_eq_true, if_false, beq_iff_eq, foldl_or_eq_zero]
      constructor
      · rintro ⟨hlen, hbytes⟩
        have len : candidate.length = expected.length := by
          by_contra hdiffer
          simp [hdiffer] at hlen
        refine ⟨hne, List.ext_getElem len fun i hi hi' => ?_⟩
        have := hbytes i (List.mem_range.mpr hi')
        rw [UInt8.xor_eq_zero_iff, List.getD_eq_getElem _ _ hi', List.getD_eq_getElem _ _ hi]
          at this
        exact this.symm
      · rintro ⟨-, rfl⟩
        simp

/-! ### `SupervisorToken` -/

/-- `to_hex`. -/
def SupervisorToken.toHex (self : SupervisorToken) : List UInt8 := Hex.encode self.bytes

/-- The error of `from_hex` and of `hex_digit`. -/
def invalidToken : IoError := invalidData "invalid supervisor token"

/-- `hex_digit`. -/
def hexDigit (value : UInt8) : Except IoError UInt8 :=
  if 48 ≤ value ∧ value ≤ 57 then .ok (value - 48)
  else if 97 ≤ value ∧ value ≤ 102 then .ok (value - 97 + 10)
  else if 65 ≤ value ∧ value ≤ 70 then .ok (value - 65 + 10)
  else .error invalidToken

/-- The loop of `from_hex` over the pairs of the text. -/
def hexPairs : List UInt8 → Except IoError (List UInt8)
  | high :: low :: rest => do
      let h ← hexDigit high
      let l ← hexDigit low
      let bytes ← hexPairs rest
      return (h <<< 4 ||| l) :: bytes
  | _ => .ok []

theorem hexPairs_length {text bytes : List UInt8} (h : hexPairs text = .ok bytes) :
    bytes.length = text.length / 2 := by
  induction text using hexPairs.induct generalizing bytes with
  | case1 high low rest ih =>
      rw [hexPairs] at h
      cases hh : hexDigit high with
      | error e => simp [hh, bind, Except.bind] at h
      | ok n =>
          cases hl : hexDigit low with
          | error e => simp [hh, hl, bind, Except.bind] at h
          | ok m =>
              cases hrest : hexPairs rest with
              | error e => simp [hh, hl, hrest, bind, Except.bind] at h
              | ok tail =>
                  simp only [hh, hl, hrest, bind, Except.bind, pure, Except.pure,
                    Except.ok.injEq] at h
                  rw [← h, List.length_cons, ih hrest]
                  simp only [List.length_cons]
                  omega
  | case2 text hshort =>
      rcases text with - | ⟨a, - | ⟨b, rest⟩⟩
      · cases h
        rfl
      · cases h
        simp
      · exact absurd rfl (hshort a b rest)

/-- `from_hex`. -/
def SupervisorToken.fromHex (value : List UInt8) : Except IoError SupervisorToken :=
  if hlength : value.length = 32 then
    match h : hexPairs value with
    | .error error => .error error
    | .ok bytes => .ok { bytes, length_eq := by rw [hexPairs_length h, hlength] }
  else .error invalidToken

theorem hexDigit_eq (c : UInt8) : hexDigit c =
    match Hex.value c with
    | some n => .ok n
    | none => .error invalidToken := by
  unfold hexDigit Hex.value
  split
  · rfl
  · split
    · rfl
    · split <;> rfl

/-- On a text of even length the pairs are decoded like any hexadecimal text. -/
theorem hexPairs_eq {text : List UInt8} (heven : text.length % 2 = 0) : hexPairs text =
    match Hex.decode text with
    | some bytes => .ok bytes
    | none => .error invalidToken := by
  induction text using hexPairs.induct with
  | case1 high low rest ih =>
      have hrest : rest.length % 2 = 0 := by
        simp only [List.length_cons] at heven
        omega
      rw [hexPairs, Hex.decode, hexDigit_eq, hexDigit_eq, ih hrest]
      cases Hex.value high <;> cases Hex.value low <;> cases Hex.decode rest <;> rfl
  | case2 text hshort =>
      rcases text with - | ⟨a, - | ⟨b, rest⟩⟩
      · rfl
      · simp at heven
      · exact absurd rfl (hshort a b rest)

/-- The outcome of `from_hex`. -/
theorem SupervisorToken.fromHex_cases (text : List UInt8) :
    (∃ token : SupervisorToken, fromHex text = .ok token ∧
      Hex.decode text = some token.bytes ∧ text.length = 32) ∨
    (fromHex text = .error invalidToken ∧ ¬ (text.length = 32 ∧ ∃ bytes,
      Hex.decode text = some bytes)) := by
  unfold fromHex
  split
  · next hlength =>
    have heq := @hexPairs_eq text (by omega)
    split
    · next error herror =>
      rw [herror] at heq
      cases hdecode : Hex.decode text with
      | none =>
          rw [hdecode] at heq
          cases heq
          exact .inr ⟨rfl, by simp⟩
      | some bytes =>
          rw [hdecode] at heq
          cases heq
    · next bytes hbytes =>
      rw [hbytes] at heq
      cases hdecode : Hex.decode text with
      | none =>
          rw [hdecode] at heq
          cases heq
      | some bytes' =>
          rw [hdecode] at heq
          cases heq
          exact .inl ⟨_, rfl, rfl, hlength⟩
  · next hlength => exact .inr ⟨rfl, fun h => hlength h.1⟩

theorem SupervisorToken.ext_bytes {token other : SupervisorToken} (h : token.bytes = other.bytes) :
    token = other := by
  cases token
  cases other
  cases h
  rfl

/-- A text is read as a token exactly when, in lower case, it is the text of the token; every
other text is refused with the one error; and the texts of two tokens agree exactly when each
authenticates the other. -/
theorem supervisor_token_text (text : List UInt8) (token other : SupervisorToken) :
    (SupervisorToken.fromHex text = .ok token ↔ text.map Hex.lower = token.toHex) ∧
    (∀ error, SupervisorToken.fromHex text = .error error → error = invalidToken) ∧
    SupervisorToken.fromHex token.toHex = .ok token ∧
    (token.authenticate other.bytes = true ↔ other.toHex = token.toHex) := by
  have hread : ∀ text : List UInt8, SupervisorToken.fromHex text = .ok token ↔
      text.map Hex.lower = token.toHex := by
    intro text
    rw [SupervisorToken.toHex, ← Hex.decode_eq_some]
    rcases SupervisorToken.fromHex_cases text with ⟨t, ht, hdecode, -⟩ | ⟨herror, hnone⟩
    · rw [ht, hdecode, Option.some.injEq]
      exact ⟨fun h => by rw [Except.ok.inj h], fun h => by rw [SupervisorToken.ext_bytes h]⟩
    · rw [herror]
      refine ⟨fun h => (by cases h), fun h => absurd ⟨?_, _, h⟩ hnone⟩
      have hlength := congrArg List.length ((Hex.decode_eq_some text token.bytes).mp h)
      rw [List.length_map, Hex.encode_length, token.length_eq] at hlength
      exact hlength
  have hlower : ∀ bytes, (Hex.encode bytes).map Hex.lower = Hex.encode bytes := fun bytes =>
    (Hex.decode_eq_some _ _).mp (Hex.decode_encode bytes)
  refine ⟨hread text, fun error herror => ?_, (hread _).mpr (hlower token.bytes), ?_⟩
  · rcases SupervisorToken.fromHex_cases text with ⟨t, ht, -⟩ | ⟨h, -⟩
    · rw [ht] at herror
      cases herror
    · rw [h] at herror
      cases herror
      rfl
  · rw [SupervisorToken.authenticate_iff]
    constructor
    · intro h
      rw [SupervisorToken.toHex, SupervisorToken.toHex, h]
    · intro h
      have hdecode := congrArg Hex.decode h
      rw [SupervisorToken.toHex, SupervisorToken.toHex, Hex.decode_encode, Hex.decode_encode]
        at hdecode
      exact Option.some.inj hdecode

end Libdeno.Supervisor
