import Mathlib.Logic.Relation
import ScreenLayout.Proofs.Json.Fields
import ScreenLayout.Proofs.Value.Wrapper

/-!
# Proofs/Value/Resolved — props as what their fields resolve to

A field of some props is found through the wrappers around the props and read through those around
the field.  Props whose fields resolve to the same are told apart by nobody who reads them so; and
there are many ways to write them:

    {title: "Hi"}   {title: {const: "Hi"}}   {value: {title: "Hi"}}   {title: "Hi", logo: null}

* `Resolver.AgreeOn` — props whose fields resolve to the same.
* `Resolver.agreeOn_of_fields` — objects agree if their wrapper keys and resolved fields do.
* `Respelling` — the ways to write props anew; `agreeOn_of_respelled` — each of them keeps what the
  fields resolve to.
-/

namespace ScreenLayout

/-- A value inside a wrapper of any kind. -/
theorem Json.wrapped?_wrap_of_mem {wrapper : String} (h : wrapper ∈ wrapperKeys) (v : Json) :
    (Json.wrap wrapper v).wrapped? = some v := by
  simp only [wrapperKeys, List.mem_cons, List.not_mem_nil, or_false] at h
  obtain rfl | rfl | rfl := h <;> rfl

namespace Resolver

variable (r : Resolver)

/-! ## Fields -/

/-- **What a field of some props resolves to**, if there is anything. -/
def resolved? (props : Json) (key : String) : Option Json := (r.field? props key).bind r.unwrap

/-- **Props that agree on some keys**: each field resolves to the same, or to nothing in both. -/
def AgreeOn (keys : List String) (p q : Json) : Prop :=
  ∀ key ∈ keys, r.resolved? p key = r.resolved? q key

instance (keys : List String) (p q : Json) : Decidable (r.AgreeOn keys p q) :=
  inferInstanceAs (Decidable (∀ key ∈ keys, r.resolved? p key = r.resolved? q key))

variable {r} {keys : List String} {p q : Json}

theorem AgreeOn.refl (p : Json) : r.AgreeOn keys p p := fun _ _ => rfl

theorem AgreeOn.symm (h : r.AgreeOn keys p q) : r.AgreeOn keys q p :=
  fun key hkey => (h key hkey).symm

theorem AgreeOn.trans {s : Json} (h : r.AgreeOn keys p q) (h' : r.AgreeOn keys q s) :
    r.AgreeOn keys p s :=
  fun key hkey => (h key hkey).trans (h' key hkey)

/-- What was unwrapped stands for itself. -/
theorem unwrap_unwrapped {v u : Json} (h : r.unwrap v = some u) : r.unwrap u = some u :=
  unwrap_of_wrapped?_eq_none r (wrapped?_of_unwrap h) (ne_null_of_unwrap h)

/-- Only what the props resolve to counts. -/
theorem agreeOn_of_unwrap_eq (h : r.unwrap p = r.unwrap q) : r.AgreeOn keys p q := by
  intro key _
  rw [resolved?, resolved?, field?, field?, h]

/-- An object without a wrapper key is read by its own fields. -/
theorem field?_object (r : Resolver) {fields : List (String × Json)}
    (h : (Json.object fields).wrapped? = none) (key : String) :
    r.field? (.object fields) key = fields.lookup key := by
  rw [field?, unwrap_of_wrapped?_eq_none r h nofun]
  rfl

/-- **Objects agree** if they hold the same under the wrapper keys, and their other fields resolve
to the same. -/
theorem agreeOn_of_fields {fields fields' : List (String × Json)}
    (hwrapper : ∀ key ∈ wrapperKeys, fields.lookup key = fields'.lookup key)
    (hfields : ∀ key ∈ keys,
      (fields.lookup key).bind r.unwrap = (fields'.lookup key).bind r.unwrap) :
    r.AgreeOn keys (.object fields) (.object fields') := by
  have hwrapped : (Json.object fields).wrapped? = (Json.object fields').wrapped? :=
    findSome?_congr hwrapper
  cases hinner : (Json.object fields).wrapped? with
  | some inner => exact agreeOn_of_unwrap_eq (unwrap_eq_of_wrapped? r hinner (hwrapped ▸ hinner))
  | none =>
    intro key hkey
    rw [resolved?, resolved?, field?_object r hinner, field?_object r (hwrapped ▸ hinner)]
    exact hfields key hkey

/-! ## Room for a wrapper -/

variable (r) in
/-- **The bound has room for a wrapper** around a value: inside it the value lies too deep only if
it does so by itself. -/
def HasRoom (wrapper : String) (v : Json) : Prop :=
  r.peel (.wrap wrapper v) = .tooDeep → r.peel v = .tooDeep

/-- **Where there is room, a wrapper changes nothing.** -/
theorem unwrap_wrap_of_hasRoom {wrapper : String} (hwrapper : wrapper ∈ wrapperKeys) {v : Json}
    (hroom : r.HasRoom wrapper v) : r.unwrap (.wrap wrapper v) = r.unwrap v := by
  have hwrap := Json.wrapped?_wrap_of_mem hwrapper v
  by_cases hdeep : r.peel (.wrap wrapper v) = .tooDeep
  · rw [unwrap, unwrap, hdeep, hroom hdeep]
  · obtain ⟨bound⟩ := r
    cases bound with
    | zero => exact absurd (peelWithin_zero hwrap) hdeep
    | succ n =>
      have hstep : peelWithin (n + 1) (.wrap wrapper v) = peelWithin n v := peelWithin_succ hwrap n
      refine congrArg Peeled.value? (hstep.trans (peelWithin_mono n.le_succ fun h => ?_).symm)
      exact hdeep (hstep.trans h)

/-- A value that is no wrapper and not `null` has room, unless no wrapper is taken off at all. -/
theorem hasRoom_of_wrapped?_eq_none {wrapper : String} (hwrapper : wrapper ∈ wrapperKeys) {v : Json}
    (hplain : v.wrapped? = none) (hnull : v ≠ .null) (hbound : 1 ≤ r.bound) :
    r.HasRoom wrapper v := by
  obtain ⟨bound⟩ := r
  obtain ⟨n, rfl⟩ := Nat.exists_eq_add_of_le' hbound
  intro hdeep
  have hstep : peelWithin (n + 1) (.wrap wrapper v) = peelWithin n v :=
    peelWithin_succ (Json.wrapped?_wrap_of_mem hwrapper v) n
  have hvalue : (Resolver.mk n).unwrap v = some v := unwrap_of_wrapped?_eq_none ⟨n⟩ hplain hnull
  rw [unwrap, peel, ← hstep, show peelWithin (n + 1) (.wrap wrapper v) = .tooDeep from hdeep]
    at hvalue
  cases hvalue

end Resolver

/-! ## Respellings -/

/-- **A way to write props anew** for readers of some keys: the props taken out of their wrappers; a
field or the props put inside a wrapper for which there is room; `null` written for a field left out;
the fields in another order; and a field more under another key.  No field here is one of the wrapper
keys of its object. -/
inductive Respelling (r : Resolver) (keys : List String) : Json → Json → Prop
  | inside {p u : Json} (h : r.unwrap p = some u) : Respelling r keys p u
  | field (front back : List (String × Json)) {key wrapper : String} {v : Json}
    (hkey : key ∉ wrapperKeys) (hwrapper : wrapper ∈ wrapperKeys) (hroom : r.HasRoom wrapper v) :
    Respelling r keys (.object (front ++ (key, v) :: back))
      (.object (front ++ (key, .wrap wrapper v) :: back))
  | props {wrapper : String} {p : Json} (hwrapper : wrapper ∈ wrapperKeys)
    (hroom : r.HasRoom wrapper p) : Respelling r keys p (.wrap wrapper p)
  | null (front back : List (String × Json)) {key : String} (hkey : key ∉ wrapperKeys)
    (habsent : (front ++ back).lookup key = none) :
    Respelling r keys (.object (front ++ back)) (.object (front ++ (key, .null) :: back))
  | order {fields fields' : List (String × Json)} (hperm : fields.Perm fields')
    (hnodup : (fields.map Prod.fst).Nodup) : Respelling r keys (.object fields) (.object fields')
  | unread (front back : List (String × Json)) {key : String} (v : Json)
    (hkey : key ∉ wrapperKeys) (hread : key ∉ keys) :
    Respelling r keys (.object (front ++ back)) (.object (front ++ (key, v) :: back))

section Respellings

variable {r : Resolver} {keys : List String} {p q : Json}

/-- A field put among others is not seen under another key. -/
theorem lookup_around_of_ne {α : Type} (front back : List (String × α)) {key other : String} (a : α)
    (h : other ≠ key) :
    (front ++ (key, a) :: back).lookup other = (front ++ back).lookup other := by
  rw [lookup_around, if_neg h, List.lookup_append]

theorem agreeOn_of_respelling (h : Respelling r keys p q) : r.AgreeOn keys p q := by
  cases h with
  | inside h => exact Resolver.agreeOn_of_unwrap_eq (h.trans (Resolver.unwrap_unwrapped h).symm)
  | props hwrapper hroom =>
    exact Resolver.agreeOn_of_unwrap_eq (Resolver.unwrap_wrap_of_hasRoom hwrapper hroom).symm
  | @field front back key wrapper v hkey hwrapper hroom =>
    refine Resolver.agreeOn_of_fields (fun other hother => ?_) fun other _ => ?_
    · have hne : other ≠ key := fun heq => hkey (heq ▸ hother)
      rw [lookup_around_of_ne front back _ hne, lookup_around_of_ne front back _ hne]
    · rw [lookup_around, lookup_around]
      by_cases hother : other = key
      · rw [if_pos hother, if_pos hother]
        cases front.lookup other with
        | some u => rfl
        | none => exact (Resolver.unwrap_wrap_of_hasRoom hwrapper hroom).symm
      · rw [if_neg hother, if_neg hother]
  | @null front back key hkey habsent =>
    refine Resolver.agreeOn_of_fields (fun other hother => ?_) fun other _ => ?_
    · have hne : other ≠ key := fun heq => hkey (heq ▸ hother)
      rw [lookup_around_of_ne front back _ hne]
    · by_cases hother : other = key
      · have hfront : front.lookup key = none := by
          rw [List.lookup_append, Option.or_eq_none_iff] at habsent
          exact habsent.1
        have hnull : r.unwrap .null = none := by
          rw [Resolver.unwrap, Resolver.peel, Resolver.peelWithin_of_wrapped?_eq_none rfl]
          rfl
        rw [hother, habsent, lookup_around, hfront, if_pos rfl]
        exact hnull.symm
      · rw [lookup_around_of_ne front back _ hother]
  | order hperm hnodup =>
    have hlookup := lookup_perm hperm hnodup
    exact Resolver.agreeOn_of_fields (fun key _ => hlookup key) fun key _ => by rw [hlookup key]
  | @unread front back key v hkey hread =>
    refine Resolver.agreeOn_of_fields (fun other hother => ?_) fun other hother => ?_
    · have hne : other ≠ key := fun heq => hkey (heq ▸ hother)
      rw [lookup_around_of_ne front back v hne]
    · have hne : other ≠ key := fun heq => hread (heq ▸ hother)
      rw [lookup_around_of_ne front back v hne]

/-- **Props written anew**, any number of times and back, **agree** on the keys that are read. -/
theorem agreeOn_of_respelled (h : Relation.EqvGen (Respelling r keys) p q) : r.AgreeOn keys p q := by
  induction h with
  | rel p q h => exact agreeOn_of_respelling h
  | refl p => exact .refl p
  | symm p q _ ih => exact ih.symm
  | trans p q s _ _ ih ih' => exact ih.trans ih'

end Respellings

end ScreenLayout
