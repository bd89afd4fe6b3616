import Libdeno.Library.JsonText

/-!
# Libdeno.NpmCache.CanonicalJson

`canonical_json`, whose bytes are hashed for the identity of a configuration: the members of
all objects are inserted in the order of their keys. Two values of `serde_json` get the same
bytes exactly when they are equal up to the order of members, whichever kind of map holds them
(`canonical_json_identifies`).

Numbers are what `serde_json` keeps: an integer of 64 bits or a finite float. Floats are equal
here if they are the same bits; so the two zeros differ, as they do in the text.
-/

namespace Libdeno.NpmCache

open JsonText (NumberText isNumeric)
open Lines (decimal)

/-! ### Values -/

/-- A finite `f64`, by its bits. -/
structure FiniteFloat where
  bits : UInt64
  finite : bits >>> 52 &&& 0x7ff ≠ 0x7ff
  deriving DecidableEq

/-- `serde_json::Number`. -/
inductive Number where
  | posInt (value : UInt64)
  | negInt (value : { value : Int64 // value < 0 })
  | float (value : FiniteFloat)

/-- `serde_json::Value`. -/
abbrev Json := JsonValue Number

/-- An object, as `serde_json::Map` iterates over it. -/
abbrev JsonMap := List (List Char × Json)

/-- `Map::insert`: into an index map with the feature `preserve_order`, else into a B-tree. -/
def JsonMap.insert (preserveOrder : Bool) (key : List Char) (value : Json) : JsonMap → JsonMap
  | [] => [(key, value)]
  | (key', value') :: object =>
      if key' = key then (key', value) :: object
      else if preserveOrder = false ∧ key < key' then (key, value) :: (key', value') :: object
      else (key', value') :: insert preserveOrder key value object

/-- Inserting one entry after the other. -/
def JsonMap.collect (preserveOrder : Bool) (entries : List (List Char × Json)) : JsonMap :=
  entries.foldl (fun object entry => JsonMap.insert preserveOrder entry.1 entry.2 object) []

mutual

/-- `canonical_json`. The values are made canonical before the entries are sorted and inserted,
instead of in between. -/
def canonicalJson (preserveOrder : Bool) : Json → Json
  | .array values => .array (canonicalValues preserveOrder values)
  | .object object =>
      .object (JsonMap.collect preserveOrder
        (JsonValue.sortMembers (canonicalEntries preserveOrder object)))
  | value => value
termination_by structural value => value

def canonicalValues (preserveOrder : Bool) : List Json → List Json
  | [] => []
  | value :: values => canonicalJson preserveOrder value :: canonicalValues preserveOrder values
termination_by structural values => values

def canonicalEntries (preserveOrder : Bool) : List (List Char × Json) → List (List Char × Json)
  | [] => []
  | (key, value) :: entries =>
      (key, canonicalJson preserveOrder value) :: canonicalEntries preserveOrder entries
termination_by structural entries => entries

end

/-- What a map can hold: no key twice, and in a B-tree the keys in order. -/
inductive Stored (preserveOrder : Bool) : Json → Prop
  | null : Stored preserveOrder .null
  | bool (value : Bool) : Stored preserveOrder (.bool value)
  | number (value : Number) : Stored preserveOrder (.number value)
  | string (text : List Char) : Stored preserveOrder (.string text)
  | array {values : List Json} : (∀ value ∈ values, Stored preserveOrder value) →
      Stored preserveOrder (.array values)
  | object {object : JsonMap} : (object.map Prod.fst).Nodup →
      (preserveOrder = false → object.Pairwise fun m n => m.1 < n.1) →
      (∀ member ∈ object, Stored preserveOrder member.2) → Stored preserveOrder (.object object)

/-- A value of the crate. -/
@[ext] structure Value (preserveOrder : Bool) where
  json : Json
  stored : Stored preserveOrder json

/-! ### The text -/

/-- How floats are written: a text of a number with a fraction or an exponent, that reads back
as the float. -/
structure FloatText where
  text : FiniteFloat → List Char
  read : List Char → Option FiniteFloat
  read_text : ∀ value, read (text value) = some value
  numeric : ∀ value, ∀ c ∈ text value, isNumeric c = true
  fraction : ∀ value, '.' ∈ text value ∨ 'e' ∈ text value

theorem isNumeric_of_mem_decimal {n : Nat} {c : Char} (h : c ∈ decimal n) : isNumeric c = true := by
  simp [isNumeric, Lines.isDigit_of_mem_decimal h]

/-- Texts that meet the laws, though not the shortest ones: the bits, with an exponent. -/
def FloatText.ofBits : FloatText where
  text value := decimal value.bits.toNat ++ ['e', '0']
  read text :=
    (Lines.parseNat UInt64.size (text.take (text.length - 2))).bind fun n =>
      if h : UInt64.ofNat n >>> 52 &&& 0x7ff ≠ 0x7ff then some ⟨UInt64.ofNat n, h⟩ else none
  read_text value := by
    have htake : ∀ digits : List Char,
        (digits ++ ['e', '0']).take ((digits ++ ['e', '0']).length - 2) = digits := by
      simp
    rw [htake, Lines.parseNat_decimal value.bits.toNat_lt]
    simp [value.finite]
  numeric value c mem := by
    rcases List.mem_append.mp mem with hdigit | hexponent
    · exact isNumeric_of_mem_decimal hdigit
    · rcases List.mem_pair.mp hexponent with rfl | rfl <;> rfl
  fraction value := .inr (by simp)

def Number.text (floats : FloatText) : Number → List Char
  | .posInt value => decimal value.toNat
  | .negInt value => '-' :: decimal value.1.toInt.natAbs
  | .float value => floats.text value

/-- An integer has no fraction and no exponent. -/
theorem FloatText.ne_integer (floats : FloatText) (value : FiniteFloat) (n : Nat) :
    floats.text value ≠ decimal n ∧ floats.text value ≠ '-' :: decimal n := by
  have hpoint := Lines.notMem_decimal (show ('.').isDigit = false from rfl) n
  have hexponent := Lines.notMem_decimal (show ('e').isDigit = false from rfl) n
  refine ⟨fun h => ?_, fun h => ?_⟩
  · rcases floats.fraction value with hmem | hmem
    · exact hpoint (h ▸ hmem)
    · exact hexponent (h ▸ hmem)
  · rcases floats.fraction value with hmem | hmem
    · rw [h, List.mem_cons] at hmem
      exact hmem.elim (by decide) hpoint
    · rw [h, List.mem_cons] at hmem
      exact hmem.elim (by decide) hexponent

theorem Number.text_injective (floats : FloatText) : Function.Injective (Number.text floats) := by
  have hsign : ∀ m n, decimal m ≠ '-' :: decimal n := fun m n h =>
    Lines.notMem_decimal (show ('-').isDigit = false from rfl) m (h ▸ List.mem_cons_self)
  intro a b h
  cases a with
  | posInt a =>
      cases b with
      | posInt b => exact congrArg _ (UInt64.toNat_inj.mp (Lines.decimal_injective h))
      | negInt b => exact absurd h (hsign _ _)
      | float b => exact absurd h.symm (floats.ne_integer b _).1
  | negInt a =>
      cases b with
      | posInt b => exact absurd h.symm (hsign _ _)
      | negInt b =>
          have habs := Lines.decimal_injective (List.cons_eq_cons.mp h).2
          have ha := Int64.lt_iff_toInt_lt.mp a.2
          have hb := Int64.lt_iff_toInt_lt.mp b.2
          rw [show (0 : Int64).toInt = 0 from rfl] at ha hb
          exact congrArg _ (Subtype.ext (Int64.toInt_inj.mp (by omega)))
      | float b => exact absurd h.symm (floats.ne_integer b _).2
  | float a =>
      cases b with
      | posInt b => exact absurd h (floats.ne_integer a _).1
      | negInt b => exact absurd h (floats.ne_integer a _).2
      | float b =>
          have hread := congrArg floats.read h
          rw [Number.text, Number.text, floats.read_text, floats.read_text] at hread
          exact congrArg _ (Option.some.inj hread)

/-- The texts of numbers. -/
def FloatText.numbers (floats : FloatText) : NumberText Number where
  text := Number.text floats
  nonempty number := by
    cases number with
    | posInt value => exact Lines.decimal_ne_nil _
    | negInt value => exact List.cons_ne_nil _ _
    | float value =>
        intro h
        change floats.text value = [] at h
        rcases floats.fraction value with hmem | hmem
        · rw [h] at hmem
          cases hmem
        · rw [h] at hmem
          cases hmem
  numeric number c mem := by
    cases number with
    | posInt value => exact isNumeric_of_mem_decimal mem
    | negInt value =>
        rcases List.mem_cons.mp mem with rfl | hmem
        · rfl
        · exact isNumeric_of_mem_decimal hmem
    | float value => exact floats.numeric value c mem
  injective := Number.text_injective floats

/-- `serde_json::to_vec`. -/
def toVec (floats : FloatText) (json : Json) : List UInt8 := JsonText.bytes floats.numbers json

/-! ### Canonical values are sorted ones -/

variable {preserveOrder : Bool}

/-- A key behind all others goes to the end of either map. -/
theorem JsonMap.insert_last {object : JsonMap} {key : List Char} (value : Json)
    (h : ∀ member ∈ object, member.1 < key) :
    JsonMap.insert preserveOrder key value object = object ++ [(key, value)] := by
  induction object with
  | nil => rfl
  | cons member object ih =>
      obtain ⟨hlt, hrest⟩ := List.forall_mem_cons.mp h
      obtain ⟨key', value'⟩ := member
      rw [JsonMap.insert, if_neg hlt.ne, if_neg fun h => lt_asymm hlt h.2, ih hrest]
      rfl

theorem JsonMap.collect_append {object entries : JsonMap}
    (h : (object ++ entries).Pairwise fun m n => m.1 < n.1) :
    entries.foldl (fun object entry => JsonMap.insert preserveOrder entry.1 entry.2 object) object =
      object ++ entries := by
  induction entries generalizing object with
  | nil => exact (List.append_nil _).symm
  | cons entry entries ih =>
      have hlast : ∀ member ∈ object, member.1 < entry.1 := fun member hmember =>
        (List.pairwise_append.mp h).2.2 member hmember entry List.mem_cons_self
      rw [List.append_cons] at h
      rw [List.foldl_cons, JsonMap.insert_last _ hlast, ih h, ← List.append_cons]

/-- Entries in the order of their keys are collected as they are. -/
theorem JsonMap.collect_eq {entries : JsonMap} (h : entries.Pairwise fun m n => m.1 < n.1) :
    JsonMap.collect preserveOrder entries = entries :=
  JsonMap.collect_append h

theorem canonicalValues_eq (values : List Json) :
    canonicalValues preserveOrder values = values.map (canonicalJson preserveOrder) := by
  induction values with
  | nil => rfl
  | cons value values ih => rw [canonicalValues, ih, List.map_cons]

theorem canonicalEntries_eq (entries : List (List Char × Json)) :
    canonicalEntries preserveOrder entries =
      entries.map fun entry => (entry.1, canonicalJson preserveOrder entry.2) := by
  induction entries with
  | nil => rfl
  | cons entry entries ih => rw [canonicalEntries, ih, List.map_cons]

theorem canonicalJson_eq_sorted {json : Json} (h : json.Distinct) :
    canonicalJson preserveOrder json = json.sorted := by
  induction json using JsonValue.induction with
  | array values ih =>
      cases h with
      | array hvalues =>
          rw [canonicalJson, canonicalValues_eq, JsonValue.sorted_array]
          exact congrArg _ (List.map_congr_left fun value hvalue =>
            ih value hvalue (hvalues value hvalue))
  | object object ih =>
      cases h with
      | object hnodup hmembers =>
          have hmap : object.map (fun entry => (entry.1, canonicalJson preserveOrder entry.2)) =
              object.map JsonValue.sortedMember :=
            List.map_congr_left fun entry hentry =>
              congrArg (Prod.mk entry.1) (ih entry hentry (hmembers entry hentry))
          rw [canonicalJson, canonicalEntries_eq, hmap, JsonValue.sorted_object,
            JsonMap.collect_eq (JsonValue.sortMembers_strict ?_)]
          rw [JsonValue.keys_sortedMember]
          exact hnodup
  | _ => rfl

theorem Stored.distinct {json : Json} (h : Stored preserveOrder json) : json.Distinct := by
  induction json using JsonValue.induction with
  | array values ih =>
      cases h with
      | array hvalues => exact .array fun value hvalue => ih value hvalue (hvalues value hvalue)
  | object object ih =>
      cases h with
      | object hnodup _ hmembers =>
          exact .object hnodup fun member hmember => ih member hmember (hmembers member hmember)
  | null => exact .null
  | bool value => exact .bool value
  | number value => exact .number value
  | string text => exact .string text

/-- Either kind of map can hold a sorted value. -/
theorem stored_sorted {json : Json} (h : json.Distinct) : Stored preserveOrder json.sorted := by
  induction json using JsonValue.induction with
  | array values ih =>
      cases h with
      | array hvalues =>
          rw [JsonValue.sorted_array]
          refine .array (List.forall_mem_map.mpr fun value hvalue => ?_)
          exact ih value hvalue (hvalues value hvalue)
  | object object ih =>
      have hsorted := h.sorted
      rw [JsonValue.sorted_object] at hsorted ⊢
      cases h with
      | object hnodup hmembers =>
          cases hsorted with
          | object hnodup' _ =>
              refine .object hnodup' (fun _ => JsonValue.sortMembers_strict ?_) fun member mem => ?_
              · rw [JsonValue.keys_sortedMember]
                exact hnodup
              · obtain ⟨entry, hentry, rfl⟩ :=
                  List.mem_map.mp ((JsonValue.sortMembers_perm _).mem_iff.mp mem)
                exact ih entry hentry (hmembers entry hentry)
  | null => exact .null
  | bool value => exact .bool value
  | number value => exact .number value
  | string text => exact .string text

/-- `canonical_json`, of a value that a map can hold, is such a value. -/
def Value.canonical (value : Value preserveOrder) : Value preserveOrder where
  json := canonicalJson preserveOrder value.json
  stored := by
    rw [canonicalJson_eq_sorted value.stored.distinct]
    exact stored_sorted value.stored.distinct

theorem Value.canonical_json (value : Value preserveOrder) :
    value.canonical.json = value.json.sorted :=
  canonicalJson_eq_sorted value.stored.distinct

theorem canonical_bytes_eq_iff (floats : FloatText) {a b : Value preserveOrder} :
    toVec floats a.canonical.json = toVec floats b.canonical.json ↔ a.json.Reordered b.json := by
  rw [← JsonValue.sorted_eq_iff a.stored.distinct, ← a.canonical_json, ← b.canonical_json]
  exact JsonText.bytes_injective.eq_iff

theorem Value.canonical_canonical (value : Value preserveOrder) :
    value.canonical.canonical = value.canonical := by
  rw [Value.ext_iff, value.canonical.canonical_json, value.canonical_json,
    JsonValue.sorted_sorted]

/-- The sorted members, without blanks. -/
example : toVec .ofBits (canonicalJson true (.object [(['b'], .array [.null]),
      (['a'], .number (.posInt 10))])) =
    Lines.encodeUtf8 "\x7b\"a\":10,\"b\":[null]\x7d".toList := by
  decide

end Libdeno.NpmCache
