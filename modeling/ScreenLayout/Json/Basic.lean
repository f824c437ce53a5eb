import ScreenLayout.Number.Double

/-!
# Json/Basic — layout data

Documents, props and style dictionaries are JSON values.  Object fields keep their order, and a
number remembers whether it was an integer of at most 64 bits or a double.

* `Number.value` — the double a number stands for.
* `Json.field?` — the value of an object field, `Json.firstField?` the first of several present.
-/

namespace ScreenLayout

/-- **A JSON number**: an integer that fits in 64 bits, signed or not, or a finite double. -/
inductive Number where
  | int (value : Int) (bounds : -9223372036854775808 ≤ value ∧ value < 18446744073709551616)
  | double (value : FiniteDouble)
deriving DecidableEq

/-- **A JSON value.** -/
inductive Json where
  | null
  | bool (value : Bool)
  | number (value : Number)
  | string (value : String)
  | array (items : List Json)
  | object (fields : List (String × Json))

instance : Inhabited Json := ⟨.null⟩

namespace Number

theorem natAbs_lt {n : Int} (h : -9223372036854775808 ≤ n ∧ n < 18446744073709551616) :
    n.natAbs < Units.twoPow 64 := by
  have : Units.twoPow 64 = 18446744073709551616 := rfl
  omega

/-- The double a number stands for, nearest to the integer. -/
def value : Number → FiniteDouble
  | .int n h => FiniteDouble.ofInt n (natAbs_lt h)
  | .double x => x

/-- A 64-bit word as a number. -/
def ofUInt64 (n : UInt64) : Number :=
  .int n.toNat ⟨by omega, by have := n.toNat_lt; omega⟩

/-- A 32-bit word as a number. -/
def ofUInt32 (n : UInt32) : Number :=
  .int n.toNat ⟨by omega, by have := n.toNat_lt; omega⟩

end Number

namespace Json

/-! ## Equality -/

mutual

/-- Equality of values is decidable. -/
def decEq : (a b : Json) → Decidable (a = b)
  | .null, b => match b with
    | .null => isTrue rfl
    | .bool _ | .number _ | .string _ | .array _ | .object _ => isFalse (by simp)
  | .bool x, b => match b with
    | .bool y => decidable_of_iff (x = y) (by simp)
    | .null | .number _ | .string _ | .array _ | .object _ => isFalse (by simp)
  | .number x, b => match b with
    | .number y => decidable_of_iff (x = y) (by simp)
    | .null | .bool _ | .string _ | .array _ | .object _ => isFalse (by simp)
  | .string x, b => match b with
    | .string y => decidable_of_iff (x = y) (by simp)
    | .null | .bool _ | .number _ | .array _ | .object _ => isFalse (by simp)
  | .array xs, b => match b with
    | .array ys => match decEqItems xs ys with
      | isTrue h => isTrue (by rw [h])
      | isFalse h => isFalse (by simpa using h)
    | .null | .bool _ | .number _ | .string _ | .object _ => isFalse (by simp)
  | .object xs, b => match b with
    | .object ys => match decEqFields xs ys with
      | isTrue h => isTrue (by rw [h])
      | isFalse h => isFalse (by simpa using h)
    | .null | .bool _ | .number _ | .string _ | .array _ => isFalse (by simp)

/-- Equality of array items is decidable. -/
def decEqItems : (xs ys : List Json) → Decidable (xs = ys)
  | [], ys => match ys with
    | [] => isTrue rfl
    | _ :: _ => isFalse (by simp)
  | x :: xs, ys => match ys with
    | [] => isFalse (by simp)
    | y :: ys => match decEq x y with
      | isFalse h => isFalse (by simp [h])
      | isTrue h => match decEqItems xs ys with
        | isTrue hs => isTrue (by rw [h, hs])
        | isFalse hs => isFalse (by simp [hs])

/-- Equality of object fields is decidable. -/
def decEqFields : (xs ys : List (String × Json)) → Decidable (xs = ys)
  | [], ys => match ys with
    | [] => isTrue rfl
    | _ :: _ => isFalse (by simp)
  | (k, x) :: xs, ys => match ys with
    | [] => isFalse (by simp)
    | (l, y) :: ys =>
      if hk : k = l then
        match decEq x y with
        | isFalse h => isFalse (by simp [h])
        | isTrue h => match decEqFields xs ys with
          | isTrue hs => isTrue (by rw [hk, h, hs])
          | isFalse hs => isFalse (by simp [hs])
      else isFalse (by simp [hk])

end

instance : DecidableEq Json := decEq

/-! ## Fields -/

/-- The value of an object field. -/
def field? (key : String) : Json → Option Json
  | .object fields => fields.lookup key
  | _ => none

/-- The value of the first of `keys` that an object has. -/
def firstField? (keys : List String) (v : Json) : Option Json := keys.findSome? (field? · v)

/-- The text of a string value. -/
def string? : Json → Option String
  | .string s => some s
  | _ => none

def isObject : Json → Bool
  | .object _ => true
  | _ => false

/-- The word for the kind of a value. -/
def kindName : Json → String
  | .null => "null"
  | .bool _ => "boolean"
  | .number _ => "number"
  | .string _ => "string"
  | .array _ => "array"
  | .object _ => "object"

/-- A double as a value; the infinite and undefined doubles have no JSON number and become `null`. -/
def ofDouble : Double → Json
  | .finite x => .number (.double x)
  | _ => .null

/-- A text, or `null` without one. -/
def ofString? : Option String → Json
  | some s => .string s
  | none => .null

end Json

end ScreenLayout
