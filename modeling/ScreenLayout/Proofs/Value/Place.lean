import ScreenLayout.Proofs.Value.Chain

/-!
# Proofs/Value/Place — values at their places

A value inside a document stands at a place, told by the keys that lead to it.  Values at different
places are stored apart, also where they are equal, so a reference into the document is a place.
Unwrapping goes from one place to another, and what it comes to lies properly inside unless there was
no wrapper:

    {id: 7, const: {value: "x"}}   ──▸   "x" at const.value

* `Json.at?` — the value at a place; `Json.sizeOf_lt_of_at?` — it is smaller than what it lies in.
* `Located`, `Located.IsInside` — a value at its place, and one properly inside another.
* `Resolver.locate` — unwrapping from place to place; `Resolver.map_value_locate` — it finds what
  unwrapping finds.
* `Resolver.place_locate_eq_iff`, `Resolver.value_locate_eq_iff` — where it stays.
-/

namespace ScreenLayout

namespace Json

/-- **The value at a place** inside a value. -/
def at? : Json → List String → Option Json
  | v, [] => some v
  | v, key :: place => (v.field? key).bind (at? · place)

variable {v u : Json}

/-- A place inside a place is reached by the one after the other. -/
theorem at?_append (v : Json) (p q : List String) :
    v.at? (p ++ q) = (v.at? p).bind (at? · q) := by
  induction p generalizing v with
  | nil => rfl
  | cons key p ih =>
    simp only [List.cons_append, at?, Option.bind_assoc]
    exact Option.bind_congr fun w _ => ih w

/-- What stands at a place is no larger than the whole. -/
theorem sizeOf_le_of_at? {place : List String} (h : v.at? place = some u) :
    sizeOf u ≤ sizeOf v := by
  induction place generalizing v with
  | nil =>
    obtain rfl : v = u := Option.some.inj h
    exact Nat.le_refl _
  | cons key place ih =>
    obtain ⟨w, hw, hu⟩ := Option.bind_eq_some_iff.1 h
    exact Nat.le_trans (ih hu) (Nat.le_of_lt (sizeOf_lt_of_field? hw))

/-- **A value properly inside another is smaller.** -/
theorem sizeOf_lt_of_at? {place : List String} (hne : place ≠ []) (h : v.at? place = some u) :
    sizeOf u < sizeOf v := by
  obtain ⟨key, place, rfl⟩ := List.exists_cons_of_ne_nil hne
  obtain ⟨w, hw, hu⟩ := Option.bind_eq_some_iff.1 h
  exact Nat.lt_of_le_of_lt (sizeOf_le_of_at? hu) (sizeOf_lt_of_field? hw)

end Json

/-! ## Values at their places -/

/-- **A value at its place** in a document. -/
@[ext] structure Located where
  place : List String
  value : Json

namespace Located

variable {x y z : Located} {keys : List String}

/-- A field at its place. -/
def field? (x : Located) (key : String) : Option Located :=
  (x.value.field? key).map fun u => ⟨x.place ++ [key], u⟩

/-- The first of several fields that is present, at its place. -/
def firstField? (keys : List String) (x : Located) : Option Located := keys.findSome? x.field?

/-- **One value properly inside another**: some keys lead to it from there. -/
def IsInside (y x : Located) : Prop :=
  ∃ keys, keys ≠ [] ∧ y.place = x.place ++ keys ∧ x.value.at? keys = some y.value

theorem IsInside.trans (hzy : z.IsInside y) (hyx : y.IsInside x) : z.IsInside x := by
  obtain ⟨front, hfront, hy, hyat⟩ := hyx
  obtain ⟨back, -, hz, hzat⟩ := hzy
  refine ⟨front ++ back, List.append_ne_nil_of_left_ne_nil hfront back, ?_, ?_⟩
  · rw [hz, hy, List.append_assoc]
  · rw [Json.at?_append, hyat]
    exact hzat

/-- **What lies properly inside is smaller**, so no value is met again on the way in, and the way
ends. -/
theorem IsInside.sizeOf_lt (h : y.IsInside x) : sizeOf y.value < sizeOf x.value := by
  obtain ⟨keys, hkeys, -, hat⟩ := h
  exact Json.sizeOf_lt_of_at? hkeys hat

/-- What lies properly inside is at another place. -/
theorem IsInside.place_ne (h : y.IsInside x) : y.place ≠ x.place := by
  obtain ⟨keys, hkeys, hplace, -⟩ := h
  rw [hplace]
  exact fun heq => hkeys (List.append_right_eq_self.1 heq)

/-- What lies properly inside is another value too, so places and values tell the same steps
apart. -/
theorem IsInside.value_ne (h : y.IsInside x) : y.value ≠ x.value :=
  fun heq => absurd h.sizeOf_lt (heq ▸ Nat.lt_irrefl _)

/-- The first field that is present is the same with places and without. -/
theorem map_value_firstField? (keys : List String) (x : Located) :
    (x.firstField? keys).map value = x.value.firstField? keys := by
  rw [firstField?, List.map_findSome?]
  exact findSome?_congr fun key _ => by
    rw [Function.comp_apply, field?, Option.map_map]
    exact Option.map_id_apply

/-- A field lies properly inside, one key further. -/
theorem isInside_of_firstField? (h : x.firstField? keys = some y) : y.IsInside x := by
  obtain ⟨key, -, hkey⟩ := List.exists_of_findSome?_eq_some h
  obtain ⟨u, hu, rfl⟩ := Option.map_eq_some_iff.1 hkey
  refine ⟨[key], List.cons_ne_nil key [], rfl, ?_⟩
  rw [Json.at?, hu]
  rfl

end Located

/-! ## Unwrapping from place to place -/

namespace Resolver

variable {n m : Nat} {x y inner : Located}

/-- A value without wrappers, unless it is `null`. -/
def stay (x : Located) : Option Located := if x.value = .null then none else some x

/-- What stands inside at most `bound` wrappers, at its place. -/
def locateWithin : (bound : Nat) → Located → Option Located
  | 0, x => match x.firstField? wrapperKeys with
    | some _ => none
    | none => stay x
  | bound + 1, x => match x.firstField? wrapperKeys with
    | some inner => locateWithin bound inner
    | none => stay x

/-- **The value inside the wrappers at its place**, unless it is `null` or lies too deep. -/
def locate (r : Resolver) (x : Located) : Option Located := locateWithin r.bound x

theorem wrapped?_eq_map_firstField? (x : Located) :
    x.value.wrapped? = (x.firstField? wrapperKeys).map Located.value :=
  (x.map_value_firstField? wrapperKeys).symm

theorem firstField?_eq_none_iff : x.firstField? wrapperKeys = none ↔ x.value.wrapped? = none := by
  rw [wrapped?_eq_map_firstField?, Option.map_eq_none_iff]

theorem locateWithin_zero (h : x.firstField? wrapperKeys = some inner) : locateWithin 0 x = none := by
  rw [locateWithin, h]

theorem locateWithin_succ (h : x.firstField? wrapperKeys = some inner) (n : Nat) :
    locateWithin (n + 1) x = locateWithin n inner := by
  rw [locateWithin, h]

theorem locateWithin_of_firstField?_eq_none (h : x.firstField? wrapperKeys = none) (n : Nat) :
    locateWithin n x = stay x := by
  cases n <;> rw [locateWithin, h]

/-- Unwrapping with places finds the value that unwrapping finds without them. -/
theorem map_value_locateWithin (n : Nat) (x : Located) :
    (locateWithin n x).map Located.value = (peelWithin n x.value).value? := by
  have hw := wrapped?_eq_map_firstField? x
  cases h : x.firstField? wrapperKeys with
  | none =>
    rw [h] at hw
    rw [locateWithin_of_firstField?_eq_none h, peelWithin_of_wrapped?_eq_none hw, value?_terminal, stay]
    split <;> rfl
  | some inner =>
    rw [h] at hw
    cases n with
    | zero => rw [locateWithin_zero h, peelWithin_zero hw]; rfl
    | succ n =>
      rw [locateWithin_succ h, peelWithin_succ hw]
      exact map_value_locateWithin n inner

/-- **What is found at its place is what unwrapping finds.** -/
theorem map_value_locate (r : Resolver) (x : Located) :
    (r.locate x).map Located.value = r.unwrap x.value := map_value_locateWithin r.bound x

/-- A greater number of wrappers allowed comes to the same place, once there is one. -/
theorem locateWithin_mono (hnm : n ≤ m) (h : locateWithin n x = some y) :
    locateWithin m x = some y := by
  induction n generalizing m x with
  | zero =>
    cases hx : x.firstField? wrapperKeys with
    | none => rw [locateWithin_of_firstField?_eq_none hx] at h ⊢; exact h
    | some inner => rw [locateWithin_zero hx] at h; cases h
  | succ n ih =>
    cases hx : x.firstField? wrapperKeys with
    | none => rw [locateWithin_of_firstField?_eq_none hx] at h ⊢; exact h
    | some inner =>
      obtain ⟨m, rfl⟩ := Nat.exists_eq_add_of_le' (Nat.le_trans n.succ_pos hnm)
      rw [locateWithin_succ hx] at h ⊢
      exact ih (Nat.le_of_succ_le_succ hnm) h

/-- **A greater bound comes to the same place.** -/
theorem locate_mono (hnm : n ≤ m) (h : (Resolver.mk n).locate x = some y) :
    (Resolver.mk m).locate x = some y := locateWithin_mono hnm h

/-! ## Where unwrapping stays -/

theorem eq_of_stay (h : stay x = some y) : y = x :=
  (Option.some.inj (Option.ite_none_left_eq_some.1 h).2).symm

theorem eq_of_locate {r : Resolver} (hx : x.value.wrapped? = none) (h : r.locate x = some y) :
    y = x := by
  rw [locate, locateWithin_of_firstField?_eq_none (firstField?_eq_none_iff.2 hx)] at h
  exact eq_of_stay h

/-- Where there is a wrapper, what unwrapping comes to lies properly inside. -/
theorem isInside_of_locateWithin (hx : x.firstField? wrapperKeys = some inner)
    (h : locateWithin n x = some y) : y.IsInside x := by
  induction n generalizing x inner with
  | zero => rw [locateWithin_zero hx] at h; cases h
  | succ n ih =>
    have hinner : inner.IsInside x := Located.isInside_of_firstField? hx
    rw [locateWithin_succ hx] at h
    cases hnext : inner.firstField? wrapperKeys with
    | none =>
      rw [locateWithin_of_firstField?_eq_none hnext] at h
      rwa [eq_of_stay h]
    | some next => exact (ih hnext h).trans hinner

/-- **Out of a wrapper, unwrapping comes to a value properly inside.** -/
theorem isInside_of_locate {r : Resolver} (hx : x.value.wrapped? ≠ none)
    (h : r.locate x = some y) : y.IsInside x := by
  obtain ⟨inner, hinner⟩ := Option.ne_none_iff_exists'.1 (mt firstField?_eq_none_iff.1 hx)
  exact isInside_of_locateWithin hinner h

/-- **Unwrapping stays in place exactly where there is no wrapper.** -/
theorem place_locate_eq_iff {r : Resolver} (h : r.locate x = some y) :
    y.place = x.place ↔ x.value.wrapped? = none := by
  refine ⟨fun hplace => ?_, fun hx => congrArg Located.place (eq_of_locate hx h)⟩
  exact Decidable.of_not_not fun hx => (isInside_of_locate hx h).place_ne hplace

/-- **Staying in place and staying the same value are one**: a part is never its whole. -/
theorem value_locate_eq_iff {r : Resolver} (h : r.locate x = some y) :
    y.value = x.value ↔ y.place = x.place := by
  rw [place_locate_eq_iff h]
  refine ⟨fun hvalue => ?_, fun hx => congrArg Located.value (eq_of_locate hx h)⟩
  exact Decidable.of_not_not fun hx => (isInside_of_locate hx h).value_ne hvalue

/-- An object without wrappers is found in its own place. -/
theorem locate_eq_self (r : Resolver) (hx : x.value.wrapped? = none) (hnull : x.value ≠ .null) :
    r.locate x = some x := by
  rw [locate, locateWithin_of_firstField?_eq_none (firstField?_eq_none_iff.2 hx), stay,
    if_neg hnull]

end Resolver

end ScreenLayout
