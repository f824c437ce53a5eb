import ScreenLayout.Json.Basic

/-!
# Proofs/Json/Fields — look-ups among the fields of an object

An object is read by look-ups alone, and a look-up gives the first field of a name.  So an order of
the fields matters only where two share a name, and a field put among others is seen under its own
name only.

* `lookup_eq_some_iff_mem`, `lookup_perm` — where no two names are the same, the order is nothing.
* `lookup_around` — a field among others.
* `Json.members` — the fields of a value, none if it is no object.
-/

namespace ScreenLayout

/-- The members of an object, in their order. -/
def Json.members : Json → List (String × Json)
  | .object fields => fields
  | _ => []

theorem Json.field?_eq_lookup (v : Json) (key : String) : v.field? key = v.members.lookup key := by
  cases v <;> rfl

/-- What is found first depends on what is found at each element. -/
theorem findSome?_congr {α β : Type} {f g : α → Option β} {l : List α} (h : ∀ a ∈ l, f a = g a) :
    l.findSome? f = l.findSome? g := by
  induction l with
  | nil => rfl
  | cons a l ih =>
    rw [List.findSome?_cons, List.findSome?_cons, h a List.mem_cons_self,
      ih fun b hb => h b (List.mem_cons_of_mem a hb)]

/-! ## Look-ups in lists -/

section Lookup

variable {α β : Type} {l : List (String × α)} {key : String}

theorem lookup_map_val (f : String → α → β) (l : List (String × α)) (key : String) :
    (l.map fun e => (e.1, f e.1 e.2)).lookup key = (l.lookup key).map (f key) := by
  induction l with
  | nil => rfl
  | cons e l ih =>
    rw [List.map_cons, List.lookup_cons, List.lookup_cons]
    by_cases h : key = e.1
    · rw [h, beq_self_eq_true]
      rfl
    · rw [beq_eq_false_iff_ne.2 h, ih]

theorem mem_of_lookup_eq_some {a : α} (h : l.lookup key = some a) : (key, a) ∈ l := by
  obtain ⟨front, back, rfl, -⟩ := List.lookup_eq_some_iff.1 h
  exact List.mem_append_right _ List.mem_cons_self

/-- **Where no two names are the same**, what is there is looked up. -/
theorem lookup_eq_some_iff_mem (hnodup : (l.map Prod.fst).Nodup) {a : α} :
    l.lookup key = some a ↔ (key, a) ∈ l := by
  refine ⟨mem_of_lookup_eq_some, fun hmem => ?_⟩
  obtain ⟨front, back, rfl⟩ := List.append_of_mem hmem
  refine List.lookup_eq_some_iff.2 ⟨front, back, rfl, fun e he => ?_⟩
  rw [List.map_append, List.nodup_append] at hnodup
  have hne : e.1 ≠ key := hnodup.2.2 e.1 (List.mem_map_of_mem he) key List.mem_cons_self
  exact bne_iff_ne.2 hne.symm

/-- **Where no two names are the same**, fields in another order are read as before. -/
theorem lookup_perm {l' : List (String × α)} (hperm : l.Perm l') (hnodup : (l.map Prod.fst).Nodup)
    (key : String) : l.lookup key = l'.lookup key := by
  have hnodup' : (l'.map Prod.fst).Nodup := (hperm.map Prod.fst).nodup_iff.1 hnodup
  refine Option.ext fun a => ?_
  rw [lookup_eq_some_iff_mem hnodup, lookup_eq_some_iff_mem hnodup', hperm.mem_iff]

/-- **A field among others** is seen under its own name, unless one before it has that name. -/
theorem lookup_around (front back : List (String × α)) (key : String) (a : α) (other : String) :
    (front ++ (key, a) :: back).lookup other
      = (front.lookup other).or (if other = key then some a else back.lookup other) := by
  rw [List.lookup_append, List.lookup_cons]
  by_cases h : other = key
  · rw [beq_iff_eq.2 h, if_pos h]
  · rw [beq_eq_false_iff_ne.2 h, if_neg h]

end Lookup

end ScreenLayout
