import ScreenLayout.Proofs.Json.Fields
import ScreenLayout.Proofs.Value.Wrapper
import ScreenLayout.Style.Compile

/-!
# Proofs/Value/Chain — a value as the chain of its wrappers

A wrapper holds the next value under the first wrapper key it has, and a value is finite, so every
value is a chain of wrappers around a core that is no wrapper itself:

    {id: 7, const: {value: {properties: "x"}}}   ──▸   three wrappers around "x"

A bound does nothing but cut this chain off: the core is found if the chain is no longer than the
bound, and is given unless it is `null`.

* `Json.Wraps`, `Json.Layers` — the links of the chain, and a chain down to its core.
* `Json.depth`, `Json.core` — its length and its end; `Json.layers_depth_core`,
  `Json.Layers.eq_depth_core` — every value has exactly one chain.
* `Resolver.peelWithin_eq_ite` — what a bound finds, told by the length and the core.
* `Resolver.unwrap_cuts_chain` — unwrapping is the chain cut off at the bound.
-/

namespace ScreenLayout

namespace Json

/-! ## Links -/

/-- **One object wraps a value**: it holds it under `value`, else under `const`, else under
`properties`, whatever the value is. -/
inductive Wraps : Json → Json → Prop
  | value {fields : List (String × Json)} {u : Json} (h : fields.lookup "value" = some u) :
    Wraps (.object fields) u
  | const {fields : List (String × Json)} {u : Json} (hvalue : fields.lookup "value" = none)
    (h : fields.lookup "const" = some u) : Wraps (.object fields) u
  | properties {fields : List (String × Json)} {u : Json} (hvalue : fields.lookup "value" = none)
    (hconst : fields.lookup "const" = none) (h : fields.lookup "properties" = some u) :
    Wraps (.object fields) u

theorem wrapped?_object (fields : List (String × Json)) :
    (object fields).wrapped? = (fields.lookup "value").or
      ((fields.lookup "const").or (fields.lookup "properties")) := by
  have hkeys : (object fields).wrapped?
      = ["value", "const", "properties"].findSome? (fields.lookup ·) := rfl
  simp only [hkeys, List.findSome?_cons, List.findSome?_nil]
  cases fields.lookup "value" <;> cases fields.lookup "const" <;>
    cases fields.lookup "properties" <;> rfl

theorem wraps_iff {v u : Json} : v.Wraps u ↔ v.wrapped? = some u := by
  constructor
  · rintro (h | ⟨hvalue, h⟩ | ⟨hvalue, hconst, h⟩)
    · rw [wrapped?_object, h, Option.some_or]
    · rw [wrapped?_object, hvalue, h, Option.none_or, Option.some_or]
    · rw [wrapped?_object, hvalue, hconst, h, Option.none_or, Option.none_or]
  · intro h
    cases v with
    | object fields =>
      rw [wrapped?_object] at h
      cases hvalue : fields.lookup "value" with
      | some w =>
        rw [hvalue, Option.some_or] at h
        exact .value (hvalue.trans h)
      | none =>
        rw [hvalue, Option.none_or] at h
        cases hconst : fields.lookup "const" with
        | some w =>
          rw [hconst, Option.some_or] at h
          exact .const hvalue (hconst.trans h)
        | none =>
          rw [hconst, Option.none_or] at h
          exact .properties hvalue hconst h
    | _ => cases h

theorem not_wraps_iff {v : Json} : (∀ u, ¬ v.Wraps u) ↔ v.wrapped? = none := by
  simp only [wraps_iff, Option.eq_none_iff_forall_not_mem, Option.mem_def]

/-- A value that wraps nothing has none of the wrapper keys. -/
theorem field?_of_wrapped?_eq_none {v : Json} (h : v.wrapped? = none) {key : String}
    (hkey : key ∈ wrapperKeys) : v.field? key = none :=
  List.findSome?_eq_none_iff.1 h key hkey

theorem sizeOf_lt_of_field? {v u : Json} {key : String} (h : v.field? key = some u) :
    sizeOf u < sizeOf v := by
  cases v with
  | object fields =>
    have hmem := List.sizeOf_lt_of_mem (mem_of_lookup_eq_some h)
    simp only [Prod.mk.sizeOf_spec] at hmem
    simp only [object.sizeOf_spec]
    omega
  | _ => cases h

/-- **What is wrapped is smaller** than its wrapper. -/
theorem sizeOf_lt_of_wrapped? {v u : Json} (h : v.wrapped? = some u) : sizeOf u < sizeOf v := by
  obtain ⟨key, -, hkey⟩ := List.exists_of_findSome?_eq_some h
  exact sizeOf_lt_of_field? hkey

/-! ## Chains -/

/-- **A chain of wrappers**: `n` of them one inside the other, and in the innermost a core that
wraps nothing. -/
inductive Layers : Nat → Json → Json → Prop
  | core {v : Json} (h : ∀ u, ¬ v.Wraps u) : Layers 0 v v
  | layer {n : Nat} {v u core : Json} (h : v.Wraps u) (hu : Layers n u core) : Layers (n + 1) v core

/-- The number of wrappers around the core of a value. -/
def depth (v : Json) : Nat :=
  match _h : v.wrapped? with
  | some inner => inner.depth + 1
  | none => 0
termination_by sizeOf v
decreasing_by exact sizeOf_lt_of_wrapped? _h

/-- The value inside all wrappers. -/
def core (v : Json) : Json :=
  match _h : v.wrapped? with
  | some inner => inner.core
  | none => v
termination_by sizeOf v
decreasing_by exact sizeOf_lt_of_wrapped? _h

variable {v u : Json}

theorem depth_of_wrapped? (h : v.wrapped? = some u) : v.depth = u.depth + 1 := by
  rw [depth]
  split <;> simp_all

theorem depth_of_wrapped?_eq_none (h : v.wrapped? = none) : v.depth = 0 := by
  rw [depth]
  split <;> simp_all

theorem core_of_wrapped? (h : v.wrapped? = some u) : v.core = u.core := by
  rw [core]
  split <;> simp_all

theorem core_of_wrapped?_eq_none (h : v.wrapped? = none) : v.core = v := by
  rw [core]
  split <;> simp_all

/-- **Every value is a chain** of wrappers around its core. -/
theorem layers_depth_core (v : Json) : Layers v.depth v v.core := by
  fun_induction depth v with
  | case1 v inner h ih =>
    rw [core_of_wrapped? h]
    exact .layer (wraps_iff.2 h) ih
  | case2 v h =>
    rw [core_of_wrapped?_eq_none h]
    exact .core (not_wraps_iff.2 h)

/-- **A value has no other chain.** -/
theorem Layers.eq_depth_core {n : Nat} {core : Json} (h : Layers n v core) :
    n = v.depth ∧ core = v.core := by
  induction h with
  | core h =>
    rw [not_wraps_iff] at h
    exact ⟨(depth_of_wrapped?_eq_none h).symm, (core_of_wrapped?_eq_none h).symm⟩
  | layer h _ ih =>
    rw [wraps_iff] at h
    obtain ⟨rfl, rfl⟩ := ih
    exact ⟨(depth_of_wrapped? h).symm, (core_of_wrapped? h).symm⟩

end Json

namespace Resolver

/-! ## A bound on the chain -/

/-- **A bound cuts the chain off.** -/
theorem peelWithin_eq_ite (d : Nat) (v : Json) :
    peelWithin d v = if v.depth ≤ d then terminal v.core else .tooDeep := by
  induction d generalizing v with
  | zero =>
    cases h : v.wrapped? with
    | none =>
      rw [peelWithin_of_wrapped?_eq_none h, Json.depth_of_wrapped?_eq_none h,
        Json.core_of_wrapped?_eq_none h, if_pos (Nat.le_refl 0)]
    | some u =>
      rw [peelWithin_zero h, Json.depth_of_wrapped? h, if_neg (Nat.not_succ_le_zero u.depth)]
  | succ d ih =>
    cases h : v.wrapped? with
    | none =>
      rw [peelWithin_of_wrapped?_eq_none h, Json.depth_of_wrapped?_eq_none h,
        Json.core_of_wrapped?_eq_none h, if_pos (Nat.zero_le (d + 1))]
    | some u =>
      rw [peelWithin_succ h, ih u, Json.depth_of_wrapped? h, Json.core_of_wrapped? h]
      simp only [Nat.add_le_add_iff_right]

theorem value?_terminal (v : Json) : (terminal v).value? = if v = .null then none else some v := by
  cases v <;> rfl

theorem terminal_ne_tooDeep (v : Json) : terminal v ≠ .tooDeep := by
  intro h
  cases v <;> cases h

/-- **Unwrapping finds the core** of a chain within the bound, unless it is `null`. -/
theorem unwrap_eq_ite (d : Nat) (v : Json) :
    (Resolver.mk d).unwrap v = if v.depth ≤ d ∧ v.core ≠ .null then some v.core else none := by
  have hpeel : (Resolver.mk d).unwrap v = (peelWithin d v).value? := rfl
  rw [hpeel, peelWithin_eq_ite]
  by_cases hdepth : v.depth ≤ d
  · rw [if_pos hdepth, value?_terminal]
    by_cases hnull : v.core = .null
    · rw [if_pos hnull, if_neg fun h => h.2 hnull]
    · rw [if_neg hnull, if_pos ⟨hdepth, hnull⟩]
  · rw [if_neg hdepth, if_neg fun h => hdepth h.1]
    rfl

/-- **A chain past the bound is logged**, and no other. -/
theorem wrapperEvents_eq_ite (c : Config) (v : Json) :
    wrapperEvents c v = if c.maxDepth < v.depth then [.tooManyWrappers c.maxDepth] else [] := by
  have hpeel : c.resolver.peel v = if v.depth ≤ c.maxDepth then terminal v.core else .tooDeep :=
    peelWithin_eq_ite c.maxDepth v
  unfold wrapperEvents
  by_cases hdepth : c.maxDepth < v.depth
  · rw [hpeel, if_neg (Nat.not_le_of_gt hdepth), if_pos hdepth]
  · rw [hpeel, if_pos (Nat.le_of_not_gt hdepth), if_neg hdepth]
    split
    · rename_i hdeep
      exact absurd hdeep (terminal_ne_tooDeep v.core)
    · rfl

/-- **Unwrapping is the chain cut off at the bound.**  A value is exactly one chain of wrappers; a
bound gives its core if the chain is no longer and the core is not `null`, and logs one entry if the
chain is longer.  So nothing is left to unwrap in what is given, a greater bound gives the same, and
one more wrapper takes one from the bound. -/
theorem unwrap_cuts_chain (v : Json) :
    ∃ n core, Json.Layers n v core
      ∧ (∀ m u, Json.Layers m v u → m = n ∧ u = core)
      ∧ (∀ d, (Resolver.mk d).unwrap v = if n ≤ d ∧ core ≠ .null then some core else none)
      ∧ (∀ c : Config, (wrapperEvents c v).map StyleEvent.diagnostic
          = if c.maxDepth < n then
              [⟨.trace, "schema value exceeded wrapper depth", [("max_depth", .count c.maxDepth)]⟩]
            else [])
      ∧ (∀ d t, (Resolver.mk d).unwrap v = some t →
          t ≠ .null ∧ (∀ key ∈ wrapperKeys, t.field? key = none)
            ∧ (∀ e, (Resolver.mk e).unwrap t = some t)
            ∧ ∀ e, d ≤ e → (Resolver.mk e).unwrap v = some t)
      ∧ ∀ d, (Resolver.mk (d + 1)).unwrap (.wrap "value" v) = (Resolver.mk d).unwrap v := by
  refine ⟨v.depth, v.core, v.layers_depth_core, fun m u h => h.eq_depth_core,
    fun d => unwrap_eq_ite d v, fun c => ?_, fun d t h => ?_, fun d => ?_⟩
  · rw [wrapperEvents_eq_ite]
    by_cases hdepth : c.maxDepth < v.depth
    · rw [if_pos hdepth, if_pos hdepth]
      rfl
    · rw [if_neg hdepth, if_neg hdepth]
      rfl
  · have hplain := wrapped?_of_unwrap h
    have hnull := ne_null_of_unwrap h
    exact ⟨hnull, fun key hkey => Json.field?_of_wrapped?_eq_none hplain hkey,
      fun e => unwrap_of_wrapped?_eq_none ⟨e⟩ hplain hnull, fun e hle => unwrap_mono hle h⟩
  · exact unwrap_wrap (List.mem_cons_self ..) d v

end Resolver

end ScreenLayout
