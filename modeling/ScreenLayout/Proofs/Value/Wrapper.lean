import ScreenLayout.Value.Resolver

/-!
# Proofs/Value/Wrapper — wrappers taken off within a bound

A value is peeled one wrapper at a time, so every law here follows the bound: a wrapper more needs a
bound that is one more, and a bound that suffices gives what every greater bound gives.  What is
unwrapped depends on the wrapper key alone and never on the keys beside it.

* `Resolver.unwrap_mono` — a greater bound finds the same value.
* `Resolver.unwrap_wrap` — a wrapper put around a value takes one from the bound.
* `Resolver.wrapped?_of_unwrap`, `Resolver.ne_null_of_unwrap` — nothing is left to unwrap.
-/

namespace ScreenLayout

/-- **A value inside a wrapper** with one key. -/
def Json.wrap (key : String) (v : Json) : Json := .object [(key, v)]

/-- The keys of the wrappers around a single value. -/
def valueKeys : List String := ["value", "const"]

/-- A value in a wrapper is what the wrapper holds. -/
theorem Json.wrapped?_wrap {key : String} (hkey : key ∈ valueKeys) (v : Json) :
    (Json.wrap key v).wrapped? = some v := by
  simp only [valueKeys, List.mem_cons, List.not_mem_nil, or_false] at hkey
  rcases hkey with rfl | rfl <;> rfl

/-- A value wrapped so has no key outside the wrapper keys. -/
theorem Json.firstField?_wrap {key : String} {keys : List String} (h : key ∉ keys) (v : Json) :
    (Json.wrap key v).firstField? keys = none := by
  rw [firstField?, List.findSome?_eq_none_iff]
  intro other hother
  have hne : (other == key) = false := beq_false_of_ne fun heq => h (heq ▸ hother)
  rw [wrap, field?, List.lookup_cons, hne, List.lookup_nil]

namespace Resolver

/-! ## One wrapper -/

/-- Where there is no wrapper the bound does not matter. -/
theorem peelWithin_of_wrapped?_eq_none {v : Json} (h : v.wrapped? = none) (bound : Nat) :
    peelWithin bound v = terminal v := by
  cases bound <;> simp only [peelWithin, h]

theorem peelWithin_zero {v inner : Json} (h : v.wrapped? = some inner) :
    peelWithin 0 v = .tooDeep := by
  simp only [peelWithin, h]

theorem peelWithin_succ {v inner : Json} (h : v.wrapped? = some inner) (bound : Nat) :
    peelWithin (bound + 1) v = peelWithin bound inner := by
  simp only [peelWithin, h]

/-- **Only the wrapper key counts**: values that wrap the same value are peeled alike. -/
theorem unwrap_eq_of_wrapped? (r : Resolver) {v w inner : Json} (hv : v.wrapped? = some inner)
    (hw : w.wrapped? = some inner) : r.unwrap v = r.unwrap w := by
  have hpeel : r.peel v = r.peel w := by
    rw [peel, peel]
    cases r.bound with
    | zero => rw [peelWithin_zero hv, peelWithin_zero hw]
    | succ bound => rw [peelWithin_succ hv, peelWithin_succ hw]
  rw [unwrap, unwrap, hpeel]

/-- **A wrapper takes one from the bound.** -/
theorem unwrap_of_wrapped? {v inner : Json} (h : v.wrapped? = some inner) (bound : Nat) :
    (Resolver.mk (bound + 1)).unwrap v = (Resolver.mk bound).unwrap inner :=
  congrArg Peeled.value? (peelWithin_succ h bound)

/-- **One more wrapper takes one more of the bound**, and nothing else. -/
theorem unwrap_wrap {key : String} (hkey : key ∈ valueKeys) (bound : Nat) (v : Json) :
    (Resolver.mk (bound + 1)).unwrap (.wrap key v) = (Resolver.mk bound).unwrap v :=
  unwrap_of_wrapped? (Json.wrapped?_wrap hkey v) bound

/-- A value without a wrapper stands for itself. -/
theorem unwrap_of_wrapped?_eq_none (r : Resolver) {v : Json} (h : v.wrapped? = none)
    (hnull : v ≠ .null) : r.unwrap v = some v := by
  rw [unwrap, peel, peelWithin_of_wrapped?_eq_none h]
  cases v <;> first | rfl | exact absurd rfl hnull

/-! ## All wrappers -/

/-- **A bound that was enough leaves the same with any greater one.** -/
theorem peelWithin_mono {n m : Nat} (hnm : n ≤ m) {v : Json} (h : peelWithin n v ≠ .tooDeep) :
    peelWithin m v = peelWithin n v := by
  induction n generalizing m v with
  | zero =>
    cases hv : v.wrapped? with
    | none => rw [peelWithin_of_wrapped?_eq_none hv, peelWithin_of_wrapped?_eq_none hv]
    | some inner => exact absurd (peelWithin_zero hv) h
  | succ n ih =>
    cases hv : v.wrapped? with
    | none => rw [peelWithin_of_wrapped?_eq_none hv, peelWithin_of_wrapped?_eq_none hv]
    | some inner =>
      obtain ⟨m, rfl⟩ := Nat.exists_eq_add_one_of_ne_zero (Nat.ne_of_gt (Nat.lt_of_lt_of_le n.succ_pos hnm))
      rw [peelWithin_succ hv] at h
      rw [peelWithin_succ hv, peelWithin_succ hv]
      exact ih (Nat.le_of_succ_le_succ hnm) h

/-- **A greater bound finds the same value.** -/
theorem unwrap_mono {n m : Nat} (hnm : n ≤ m) {v u : Json}
    (h : (Resolver.mk n).unwrap v = some u) : (Resolver.mk m).unwrap v = some u := by
  have hdeep : peelWithin n v ≠ .tooDeep := by
    intro hdeep
    have hnone : (Resolver.mk n).unwrap v = none := congrArg Peeled.value? hdeep
    rw [hnone] at h
    cases h
  exact (congrArg Peeled.value? (peelWithin_mono hnm hdeep)).trans h

/-- What is peeled off to a value has neither a wrapper nor is it `null`. -/
theorem peelWithin_eq_value {bound : Nat} {v u : Json} (h : peelWithin bound v = .value u) :
    u.wrapped? = none ∧ u ≠ .null := by
  induction bound generalizing v with
  | zero =>
    cases hv : v.wrapped? with
    | none =>
      rw [peelWithin_of_wrapped?_eq_none hv] at h
      cases v <;> cases h <;> exact ⟨hv, nofun⟩
    | some inner => rw [peelWithin_zero hv] at h; cases h
  | succ bound ih =>
    cases hv : v.wrapped? with
    | none =>
      rw [peelWithin_of_wrapped?_eq_none hv] at h
      cases v <;> cases h <;> exact ⟨hv, nofun⟩
    | some inner =>
      rw [peelWithin_succ hv] at h
      exact ih h

theorem peel_eq_value_of_unwrap {r : Resolver} {v u : Json} (h : r.unwrap v = some u) :
    r.peel v = .value u := by
  rw [unwrap] at h
  cases hp : r.peel v <;> rw [hp] at h <;> cases h
  rfl

/-- **Nothing is left to unwrap** in what was unwrapped. -/
theorem wrapped?_of_unwrap {r : Resolver} {v u : Json} (h : r.unwrap v = some u) :
    u.wrapped? = none :=
  (peelWithin_eq_value (peel_eq_value_of_unwrap h)).1

/-- What is found inside wrappers is not `null`. -/
theorem ne_null_of_unwrap {r : Resolver} {v u : Json} (h : r.unwrap v = some u) : u ≠ .null :=
  (peelWithin_eq_value (peel_eq_value_of_unwrap h)).2

end Resolver

end ScreenLayout
