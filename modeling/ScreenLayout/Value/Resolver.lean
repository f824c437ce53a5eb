import ScreenLayout.Value.Coercion

/-!
# Value/Resolver — wrappers around values

Any value may arrive inside wrapper objects: `value`, `const` and `properties` each hold another
value, and an object with several is read through the first of these.  A `Resolver` takes off at
most `bound` wrappers.

* `Resolver.peel` — what stands inside the wrappers, `null` and too many wrappers told apart.
* `Resolver.unwrap` — the value inside, if there is one.
* `Resolver.field?` — a field of the object a value resolves to.
* `Resolver.fieldPath?_append` — a path is followed in two steps.
-/

namespace ScreenLayout

/-- The keys that make an object a wrapper, in the order they are looked up. -/
def wrapperKeys : List String := ["value", "const", "properties"]

/-- The value inside one wrapper. -/
def Json.wrapped? (v : Json) : Option Json := v.firstField? wrapperKeys

/-- What unwrapping a value comes to. -/
inductive Peeled where
  | value (v : Json)
  | null
  | tooDeep
deriving DecidableEq

/-- The value, if there is one. -/
def Peeled.value? : Peeled → Option Json
  | .value v => some v
  | _ => none

/-- **A bound on the wrappers** taken off one value. -/
structure Resolver where
  bound : Nat := 32
deriving DecidableEq

namespace Resolver

/-- A value without wrappers. -/
def terminal : Json → Peeled
  | .null => .null
  | v => .value v

/-- What stands inside at most `bound` wrappers. -/
def peelWithin : (bound : Nat) → Json → Peeled
  | 0, v => match v.wrapped? with
    | some _ => .tooDeep
    | none => terminal v
  | bound + 1, v => match v.wrapped? with
    | some inner => peelWithin bound inner
    | none => terminal v

variable (r : Resolver)

/-- **What stands inside the wrappers of a value.** -/
def peel (v : Json) : Peeled := peelWithin r.bound v

/-- The value inside the wrappers, unless it is `null` or lies too deep. -/
def unwrap (v : Json) : Option Json := (r.peel v).value?

/-! ## Typed reading -/

/-- The value inside, or a fallback. -/
def value (v : Option Json) (fallback : Json) : Json := (v.bind r.unwrap).getD fallback

/-- The flag inside, if there is one. -/
def bool? (v : Option Json) : Option Bool := (v.bind r.unwrap).bind Json.toBool?

/-- The number inside, if there is one. -/
def number? (v : Option Json) : Option FiniteDouble := (v.bind r.unwrap).bind Json.toNumber?

/-- The text inside, if there is one that is not empty. -/
def text? (v : Option Json) : Option String := (v.bind r.unwrap).bind Json.toText?

/-- The items of the array inside, if it is one. -/
def items? (v : Option Json) : Option (List Json) :=
  match v.bind r.unwrap with
  | some (.array items) => some items
  | _ => none

/-! ## Fields of wrapped objects -/

/-- The field of the object a value resolves to. -/
def field? (v : Json) (key : String) : Option Json := (r.unwrap v).bind (·.field? key)

/-- The field reached by a path of keys. -/
def fieldPath? : Json → List String → Option Json
  | v, [] => some v
  | v, key :: path => (r.field? v key).bind (fieldPath? · path)

/-- The first of several fields that is present, whatever its value. -/
def firstPresent? (v : Json) (keys : List String) : Option Json :=
  (r.unwrap v).bind (·.firstField? keys)

/-- **A path is followed in two steps.** -/
theorem fieldPath?_append (v : Json) (p q : List String) :
    r.fieldPath? v (p ++ q) = (r.fieldPath? v p).bind (r.fieldPath? · q) := by
  induction p generalizing v with
  | nil => rfl
  | cons key p ih =>
    simp only [List.cons_append, fieldPath?, Option.bind_assoc]
    exact Option.bind_congr fun u _ => ih u

end Resolver

end ScreenLayout
