import Libdeno.Library.Json

/-!
# Libdeno.Broker.RequestId

`broker_request_id` of `permission_broker.rs`: the id of a request that cannot be decoded, or
of the beginning of one that is too long. A visitor goes through the members of the object
with a streaming deserialiser, which is a parameter with the laws of `Json.MapReader`.

What the function is for is stated over the whole line: its members (`objectMembers`) and
the number of the one called `id` (`ownId`). An id recovered from the beginning of a line is
that number except where the line was cut inside its digits (`CutInId`): the deserialiser
takes the end of the input for the end of the number.
-/

namespace Libdeno.Broker

open Json Scan

/-- Maximum bytes in one newline-delimited broker request, including the newline. -/
def maxBrokerLineBytes : Nat := 64 * 1024

/-- The field by which a response is matched with its request. -/
def idKey : List Char := ['i', 'd']

section

variable (reader : MapReader)

/-- `IdVisitor::visit_map`: the id found so far, and what the visit came to. -/
def visitMap (first : Bool) (id : Option Nat) (input : List UInt8) :
    Option Nat × Reading UInt8 Unit :=
  match _hkey : reader.nextKey first input with
  | .ok none rest => (id, .ok () rest)
  | .ok (some key) rest =>
      if key = idKey then
        -- a duplicate takes the id back and fails
        if id.isSome then (none, .bad)
        else
          match _hvalue : reader.nextU32 rest with
          | .ok n rest' => visitMap false (some n) rest'
          | .eof => (id, .eof)
          | .bad => (id, .bad)
      else
        match _hvalue : reader.skipValue rest with
        | .ok _ rest' => visitMap false id rest'
        | .eof => (id, .eof)
        | .bad => (id, .bad)
  | .eof => (id, .eof)
  | .bad => (id, .bad)
termination_by input.length
decreasing_by
  · exact Nat.lt_of_le_of_lt (MapReader.nextU32_shorter _hvalue) (reader.nextKey_shorter _hkey)
  · exact Nat.lt_of_le_of_lt (reader.skipValue_shorter _hvalue) (reader.nextKey_shorter _hkey)

/-- `broker_request_id` -/
def brokerRequestId (bytes : List UInt8) (allowTruncatedEof : Bool) : Option Nat :=
  match reader.openObject bytes with
  | .ok _ body =>
      match visitMap reader true none body with
      | (id, .ok _ rest) => if reader.finished rest then id else none
      | (id, .eof) => if allowTruncatedEof then id else none
      | (_, .bad) => none
  | .eof | .bad => none

/-! ### The line as an object -/

/-- The members from here to the closing brace: each key with what follows it, and what
follows the brace. -/
def members (first : Bool) (input : List UInt8) :
    Option (List (List Char × List UInt8) × List UInt8) :=
  match _hkey : reader.nextKey first input with
  | .ok none rest => some ([], rest)
  | .ok (some key) rest =>
      match _hvalue : reader.skipValue rest with
      | .ok _ rest' => (members false rest').map fun p => ((key, rest) :: p.1, p.2)
      | .eof | .bad => none
  | .eof | .bad => none
termination_by input.length
decreasing_by
  exact Nat.lt_of_le_of_lt (reader.skipValue_shorter _hvalue) (reader.nextKey_shorter _hkey)

/-- The members of a text that is one object. -/
def objectMembers (line : List UInt8) : Option (List (List Char × List UInt8)) :=
  match reader.openObject line with
  | .ok _ body =>
      match members reader true body with
      | some (found, rest) => if reader.finished rest then some found else none
      | none => none
  | .eof | .bad => none

/-- The line is an object with exactly one member of that name. -/
def SingleId (line : List UInt8) : Prop :=
  ∃ found, objectMembers reader line = some found ∧
    (found.filter fun m => m.1 = idKey).length = 1

/-- The value of the line's id, where it is a number of 32 bits. -/
def ownId (line : List UInt8) : Option Nat :=
  (objectMembers reader line).bind fun found =>
    (found.find? fun m => m.1 = idKey).bind fun m =>
      match reader.nextU32 m.2 with
      | .ok n _ => some n
      | .eof | .bad => none

/-- Going through the members, the first id is followed by `text`. -/
inductive IdAt : Bool → List UInt8 → List UInt8 → Prop
  | here {first : Bool} {input text : List UInt8}
      (hkey : reader.nextKey first input = .ok (some idKey) text) : IdAt first input text
  | later {first : Bool} {input rest rest' text : List UInt8} {key : List Char}
      (hkey : reader.nextKey first input = .ok (some key) rest) (other : key ≠ idKey)
      (hvalue : reader.skipValue rest = .ok () rest') (tail : IdAt false rest' text) :
      IdAt first input text

/-- The first `maxBrokerLineBytes + 1` bytes of the line end inside the number of its id: at
least one digit is among them, and the byte that follows belongs to the number. -/
def CutInId (line : List UInt8) : Prop :=
  ∃ body text n, reader.openObject (line.take (maxBrokerLineBytes + 1)) = .ok () body ∧
    IdAt reader true body text ∧ reader.nextU32 text = .ok n [] ∧
    Continued (line.drop (maxBrokerLineBytes + 1))

end

variable {reader : MapReader} {first : Bool} {input rest text : List UInt8} {n : Nat}

/-! ### Reading a line that was cut -/

/-- How a visit can leave an id behind: it had one, or it took the next member's, or it went
on behind another member. -/
theorem visitMap_cases {id : Option Nat} {out : Reading UInt8 Unit}
    (h : visitMap reader first id input = (some n, out)) :
    id = some n ∨
    (∃ text m rest, id = none ∧ reader.nextKey first input = .ok (some idKey) text ∧
      reader.nextU32 text = .ok m rest ∧
      visitMap reader false (some m) rest = (some n, out)) ∨
    (∃ key rest rest', key ≠ idKey ∧ reader.nextKey first input = .ok (some key) rest ∧
      reader.skipValue rest = .ok () rest' ∧
      visitMap reader false id rest' = (some n, out)) := by
  rw [visitMap] at h
  split at h
  · exact .inl (congrArg Prod.fst h)
  · rename_i key rest hkey
    split_ifs at h with hid hsome
    · cases h
    · have hnone : id = none := Option.not_isSome_iff_eq_none.mp hsome
      split at h
      · exact .inr (.inl ⟨rest, _, _, hnone, hid ▸ hkey, ‹_›, h⟩)
      · exact .inl (congrArg Prod.fst h)
      · exact .inl (congrArg Prod.fst h)
    · split at h
      · exact .inr (.inr ⟨key, rest, _, hid, hkey, ‹_›, h⟩)
      · exact .inl (congrArg Prod.fst h)
      · exact .inl (congrArg Prod.fst h)
  · exact .inl (congrArg Prod.fst h)
  · exact .inl (congrArg Prod.fst h)

/-- An id that was found is not replaced: a second one takes it back. -/
theorem visitMap_some {m : Nat} {out : Reading UInt8 Unit}
    (h : visitMap reader first (some m) input = (some n, out)) : n = m := by
  induction hlen : input.length using Nat.strong_induction_on generalizing first input with
  | _ len ih =>
      rcases visitMap_cases h with hid | ⟨_, _, _, hnone, _⟩ |
        ⟨key, rest, rest', _, hkey, hvalue, htail⟩
      · exact (Option.some.inj hid).symm
      · cases hnone
      · have hshort := Nat.lt_of_le_of_lt (reader.skipValue_shorter hvalue)
          (reader.nextKey_shorter hkey)
        exact ih _ (hlen ▸ hshort) htail rfl

/-- An id that is left behind is the number after the first id. -/
theorem visitMap_found {out : Reading UInt8 Unit}
    (h : visitMap reader first none input = (some n, out)) :
    ∃ text rest, IdAt reader first input text ∧ reader.nextU32 text = .ok n rest := by
  induction hlen : input.length using Nat.strong_induction_on generalizing first input with
  | _ len ih =>
      rcases visitMap_cases h with hid | ⟨text, m, rest, -, hkey, hvalue, htail⟩ |
        ⟨key, rest, rest', hother, hkey, hvalue, htail⟩
      · cases hid
      · obtain rfl := visitMap_some htail
        exact ⟨text, rest, .here hkey, hvalue⟩
      · have hshort := Nat.lt_of_le_of_lt (reader.skipValue_shorter hvalue)
          (reader.nextKey_shorter hkey)
        obtain ⟨text, rest, hat, hnumber⟩ := ih _ (hlen ▸ hshort) htail rfl
        exact ⟨text, rest, .later hkey hother hvalue hat, hnumber⟩

/-- Conversely, a number that the input ends in is left behind as the id. -/
theorem IdAt.visitMap_cut (hat : IdAt reader first input text)
    (hnumber : reader.nextU32 text = .ok n []) :
    visitMap reader first none input = (some n, .eof) := by
  induction hat with
  | here hkey =>
      rw [visitMap, hkey]
      show (if idKey = idKey then _ else _) = _
      rw [if_pos rfl, if_neg (by simp), hnumber]
      show visitMap reader false (some n) [] = _
      rw [visitMap, reader.nextKey_nil]
  | later hkey other hvalue tail ih =>
      rw [visitMap, hkey]
      show (if _ = idKey then _ else _) = _
      rw [if_neg other, hvalue]
      exact ih hnumber

/-- What comes after the cut does not move the first id. -/
theorem IdAt.append (hat : IdAt reader first input text) (more : List UInt8) :
    IdAt reader first (input ++ more) (text ++ more) := by
  induction hat with
  | here hkey => exact .here (reader.nextKey_append more hkey)
  | later hkey other hvalue tail ih =>
      refine .later (reader.nextKey_append more hkey) other
        (reader.skipValue_append more hvalue ?_) ih
      rintro rfl
      cases tail with
      | here hkey' =>
          rw [reader.nextKey_nil] at hkey'
          cases hkey'
      | later hkey' _ _ _ =>
          rw [reader.nextKey_nil] at hkey'
          cases hkey'

/-- The first id among the members. -/
theorem IdAt.find?_members (hat : IdAt reader first input text)
    {found : List (List Char × List UInt8)}
    (h : members reader first input = some (found, rest)) :
    found.find? (fun m => m.1 = idKey) = some (idKey, text) := by
  induction hat generalizing found rest with
  | here hkey =>
      rw [members, hkey] at h
      simp only at h
      split at h
      · rename_i rest' hvalue
        obtain ⟨⟨found', rest''⟩, -, heq⟩ := Option.map_eq_some_iff.mp h
        injection heq with heq
        rw [← heq, List.find?_cons_of_pos (by simp)]
      · cases h
      · cases h
  | later hkey other hvalue tail ih =>
      rw [members, hkey] at h
      simp only at h
      rw [hvalue] at h
      obtain ⟨⟨found', rest''⟩, htail, heq⟩ := Option.map_eq_some_iff.mp h
      injection heq with heq
      rw [← heq, List.find?_cons_of_neg (by simp [other])]
      exact ih htail

variable {bytes more : List UInt8} {allowTruncatedEof : Bool}

/-- Where a recovered id comes from. -/
theorem brokerRequestId_found (h : brokerRequestId reader bytes allowTruncatedEof = some n) :
    ∃ body text rest, reader.openObject bytes = .ok () body ∧ IdAt reader true body text ∧
      reader.nextU32 text = .ok n rest := by
  rw [brokerRequestId] at h
  split at h
  · rename_i body hopen
    have hvisit : ∃ out, visitMap reader true none body = (some n, out) := by
      split at h
      · rename_i id _ rest heq
        split_ifs at h
        exact ⟨_, h ▸ heq⟩
      · rename_i id heq
        split_ifs at h
        exact ⟨_, h ▸ heq⟩
      · cases h
    obtain ⟨out, hvisit⟩ := hvisit
    obtain ⟨text, rest, hat, hnumber⟩ := visitMap_found hvisit
    exact ⟨body, text, rest, hopen, hat, hnumber⟩
  · cases h
  · cases h

/-- A line that ends in the digits of its first id gives the number up to there. -/
theorem brokerRequestId_cut {body : List UInt8} (hopen : reader.openObject bytes = .ok () body)
    (hat : IdAt reader true body text) (hnumber : reader.nextU32 text = .ok n []) :
    brokerRequestId reader bytes true = some n := by
  rw [brokerRequestId, hopen]
  show (match visitMap reader true none body with
    | (id, .ok _ rest) => if reader.finished rest then id else none
    | (id, .eof) => if true then id else none
    | (_, .bad) => none) = _
  rw [hat.visitMap_cut hnumber]
  rfl

/-- The id of an object is the number after its first id. -/
theorem ownId_of_idAt {line body : List UInt8} {found : List (List Char × List UInt8)}
    (whole : objectMembers reader line = some found)
    (hopen : reader.openObject line = .ok () body) (hat : IdAt reader true body text) :
    ownId reader line = match reader.nextU32 text with
      | .ok n _ => some n
      | .eof | .bad => none := by
  have hmembers : ∃ rest, members reader true body = some (found, rest) := by
    rw [objectMembers, hopen] at whole
    simp only at whole
    split at whole
    · rename_i found' rest heq
      split_ifs at whole
      exact ⟨rest, Option.some.inj whole ▸ heq⟩
    · cases whole
  obtain ⟨rest, hmembers⟩ := hmembers
  rw [ownId, whole, Option.bind_some, hat.find?_members hmembers, Option.bind_some]

/-- What is recovered from the beginning of an object is its id, or the beginning ends inside
the number. -/
theorem ownId_of_brokerRequestId {found : List (List Char × List UInt8)}
    (h : brokerRequestId reader bytes allowTruncatedEof = some n)
    (whole : objectMembers reader (bytes ++ more) = some found) :
    ownId reader (bytes ++ more) = some n ∨
    ∃ body text, reader.openObject bytes = .ok () body ∧ IdAt reader true body text ∧
      reader.nextU32 text = .ok n [] ∧ Continued more := by
  obtain ⟨body, text, rest, hopen, hat, hnumber⟩ := brokerRequestId_found h
  have hown := ownId_of_idAt whole (reader.openObject_append more hopen) (hat.append more)
  by_cases hcut : rest = [] ∧ Continued more
  · obtain ⟨rfl, hgoes⟩ := hcut
    exact .inr ⟨body, text, hopen, hat, hnumber, hgoes⟩
  · left
    have hnumber' : reader.nextU32 (text ++ more) = .ok n (rest ++ more) := by
      by_cases hrest : rest = []
      · subst hrest
        exact MapReader.nextU32_append hnumber fun hgoes => hcut ⟨rfl, hgoes⟩
      · exact MapReader.nextU32_append_of_left hnumber hrest more
    rw [hown, hnumber']

/-- In the second case it is not. -/
theorem ownId_ne_of_cut {found : List (List Char × List UInt8)} {body : List UInt8}
    (whole : objectMembers reader (bytes ++ more) = some found)
    (hopen : reader.openObject bytes = .ok () body) (hat : IdAt reader true body text)
    (hnumber : reader.nextU32 text = .ok n []) (goes : Continued more) :
    ownId reader (bytes ++ more) ≠ some n := by
  rw [ownId_of_idAt whole (reader.openObject_append more hopen) (hat.append more)]
  intro h
  split at h
  · rename_i m rest heq
    rw [Option.some.inj h] at heq
    exact MapReader.nextU32_ne_of_continued hnumber goes rest heq
  · cases h
  · cases h

end Libdeno.Broker
