import ScreenLayout.Proofs.Value.Chain

/-!
# Proofs/Value/Path — a path of keys does not see wrappers

A path is followed through the core of each value on its way, and the bound counts anew at each of
them.  So wrappers put around the root and around the values that the path meets change nothing, as
long as no chain on the way grows past the bound:

    {style: {color: "red"}}     reads as     {const: {style: {value: {color: {const: "red"}}}}}

* `Json.mapField`, `Json.put`, `Json.mapCore` — a change of one field, a value put under a key, and a
  change of the core inside the same wrappers; `Resolver.unwrap_mapCore` — what that resolves to.
* `Json.rewrap` — a value with wrappers put around it and around the values along a path;
  `Json.RoomAlong` — where each chain stays within the bound.
* `Resolver.bind_unwrap_fieldPath?_rewrap` — such wrappers are not seen at the end of the path.
* `Resolver.fieldPath?_through_wrappers` — that, and a path followed in two parts.
-/

namespace ScreenLayout

namespace Json

variable {v u : Json}

/-! ## Wrappers put around a value -/

/-- A value inside several wrappers, the first outermost. -/
def wrapAll (wrappers : List String) (v : Json) : Json := wrappers.foldr wrap v

theorem depth_wrapAll {wrappers : List String} (hkeys : ∀ key ∈ wrappers, key ∈ valueKeys)
    (v : Json) : (v.wrapAll wrappers).depth = v.depth + wrappers.length := by
  induction wrappers with
  | nil => rfl
  | cons key wrappers ih =>
    obtain ⟨hkey, hkeys⟩ := List.forall_mem_cons.1 hkeys
    have hwrapped : (v.wrapAll (key :: wrappers)).wrapped? = some (v.wrapAll wrappers) :=
      wrapped?_wrap hkey _
    rw [depth_of_wrapped? hwrapped, ih hkeys, List.length_cons, Nat.add_assoc]

theorem core_wrapAll {wrappers : List String} (hkeys : ∀ key ∈ wrappers, key ∈ valueKeys)
    (v : Json) : (v.wrapAll wrappers).core = v.core := by
  induction wrappers with
  | nil => rfl
  | cons key wrappers ih =>
    obtain ⟨hkey, hkeys⟩ := List.forall_mem_cons.1 hkeys
    have hwrapped : (v.wrapAll (key :: wrappers)).wrapped? = some (v.wrapAll wrappers) :=
      wrapped?_wrap hkey _
    rw [core_of_wrapped? hwrapped, ih hkeys]

/-! ## One field changed -/

/-- The value under one key of an object replaced by its image; no other value has such keys. -/
def mapField (key : String) (f : Json → Json) : Json → Json
  | .object fields => .object (fields.map fun e => (e.1, if e.1 = key then f e.2 else e.2))
  | v => v

theorem field?_mapField (key : String) (f : Json → Json) (v : Json) (other : String) :
    (v.mapField key f).field? other
      = (v.field? other).map fun u => if other = key then f u else u := by
  cases v with
  | object fields => exact lookup_map_val (fun k u => if k = key then f u else u) fields other
  | _ => rfl

theorem field?_mapField_self (key : String) (f : Json → Json) (v : Json) :
    (v.mapField key f).field? key = (v.field? key).map f := by
  simp only [field?_mapField, if_true]

/-- A change under some key makes no wrapper of what is none. -/
theorem wrapped?_mapField_eq_none (key : String) (f : Json → Json) (h : v.wrapped? = none) :
    (v.mapField key f).wrapped? = none := by
  refine List.findSome?_eq_none_iff.2 fun other hother => ?_
  rw [field?_mapField, field?_of_wrapped?_eq_none h hother, Option.map_none]

/-- **A value put under a key** of an object: in place of the one there, or after the other fields. -/
def put (v : Json) (key : String) (u : Json) : Json :=
  match v with
  | .object fields =>
    if (fields.lookup key).isSome then v.mapField key fun _ => u else .object (fields ++ [(key, u)])
  | v => v

theorem field?_put_object (fields : List (String × Json)) (key : String) (u : Json) :
    ((object fields).put key u).field? key = some u := by
  dsimp only [put]
  split
  · rename_i hthere
    obtain ⟨w, hw⟩ := Option.isSome_iff_exists.1 hthere
    have hfield : (object fields).field? key = some w := hw
    rw [field?_mapField_self, hfield, Option.map_some]
  · rename_i hthere
    have habsent : fields.lookup key = none := Option.not_isSome_iff_eq_none.1 hthere
    rw [field?, lookup_around, habsent, if_pos rfl, Option.none_or]

theorem field?_put_of_ne {key other : String} (h : other ≠ key) (v u : Json) :
    (v.put key u).field? other = v.field? other := by
  cases v with
  | object fields =>
    dsimp only [put]
    split
    · simp only [field?_mapField, if_neg h, Option.map_id']
    · rw [field?, lookup_around, if_neg h, List.lookup_nil, Option.or_none]
      rfl
  | _ => rfl

/-- A value put under a key that makes no wrapper. -/
theorem wrapped?_put {key : String} (hkey : key ∉ wrapperKeys) (v u : Json) :
    (v.put key u).wrapped? = v.wrapped? :=
  findSome?_congr fun _ hother => field?_put_of_ne (ne_of_mem_of_not_mem hother hkey) v u

/-! ## The core changed -/

/-- The first of the wrapper keys that a wrapper has. -/
def wrapperKey (v : Json) : String := (wrapperKeys.find? fun key => (v.field? key).isSome).getD ""

/-- **A wrapper with another value in it.** -/
theorem wrapped?_mapField_wrapperKey (h : v.wrapped? = some u) (w : Json) :
    (v.mapField v.wrapperKey fun _ => w).wrapped? = some w := by
  obtain ⟨front, key, back, hkeys, hkey, hfront⟩ := List.findSome?_eq_some_iff.1 h
  have hfind : wrapperKeys.find? (fun key => (v.field? key).isSome) = some key := by
    refine List.find?_eq_some_iff_append.2 ⟨by rw [hkey]; rfl, front, back, hkeys, fun k hk => ?_⟩
    rw [hfront k hk]
    rfl
  have hwrapperKey : v.wrapperKey = key := by rw [wrapperKey, hfind, Option.getD_some]
  refine List.findSome?_eq_some_iff.2 ⟨front, key, back, hkeys, ?_, fun k hk => ?_⟩
  · rw [hwrapperKey, field?_mapField_self, hkey, Option.map_some]
  · rw [field?_mapField, hfront k hk, Option.map_none]

/-- **The core of a value replaced by its image**, inside the same wrappers. -/
def mapCore (f : Json → Json) (v : Json) : Json :=
  match _h : v.wrapped? with
  | some inner => v.mapField v.wrapperKey fun _ => inner.mapCore f
  | none => f v
termination_by sizeOf v
decreasing_by exact sizeOf_lt_of_wrapped? _h

theorem wrapped?_core (v : Json) : v.core.wrapped? = none := by
  fun_induction core v with
  | case1 v inner h ih => exact ih
  | case2 v h => exact h

theorem mapCore_of_wrapped?_eq_none (f : Json → Json) (h : v.wrapped? = none) :
    v.mapCore f = f v := by
  rw [mapCore]
  split <;> simp_all

theorem wrapped?_mapCore (f : Json → Json) (h : v.wrapped? = some u) :
    (v.mapCore f).wrapped? = some (u.mapCore f) := by
  rw [mapCore]
  split
  · rename_i inner hinner
    obtain rfl : inner = u := Option.some.inj (hinner.symm.trans h)
    exact wrapped?_mapField_wrapperKey h _
  · rename_i hnone
    rw [hnone] at h
    cases h

/-- **The image of the core lies in as many wrappers**, unless it is a wrapper itself. -/
theorem depth_core_mapCore {f : Json → Json} (hf : (f v.core).wrapped? = none) :
    (v.mapCore f).depth = v.depth ∧ (v.mapCore f).core = f v.core := by
  fun_induction core v with
  | case1 v inner h ih =>
    obtain ⟨hdepth, hcore⟩ := ih hf
    have hwrapped := wrapped?_mapCore f h
    exact ⟨by rw [depth_of_wrapped? hwrapped, depth_of_wrapped? h, hdepth],
      by rw [core_of_wrapped? hwrapped, hcore]⟩
  | case2 v h =>
    rw [mapCore_of_wrapped?_eq_none f h, depth_of_wrapped?_eq_none h]
    exact ⟨depth_of_wrapped?_eq_none hf, core_of_wrapped?_eq_none hf⟩

/-! ## Wrappers along a path -/

/-- Wrappers put around the values along a path, each key given with those for the value under it. -/
def rewrapInside : List (String × List String) → Json → Json
  | [], v => v
  | (key, wrappers) :: steps, v =>
    v.mapCore (mapField key fun u => (rewrapInside steps u).wrapAll wrappers)

/-- **A value with more wrappers** around it and around the values along a path. -/
def rewrap (wrappers : List String) (steps : List (String × List String)) (v : Json) : Json :=
  (rewrapInside steps v).wrapAll wrappers

/-- **Room for more wrappers** around a value and around the values along a path: at each of them the
wrappers there are and those to come are together within the bound. -/
def RoomAlong (bound : Nat) : List String → List (String × List String) → Json → Prop
  | wrappers, [], v => v.depth + wrappers.length ≤ bound
  | wrappers, (key, inner) :: steps, v => v.depth + wrappers.length ≤ bound
    ∧ ∀ u, v.core.field? key = some u → RoomAlong bound inner steps u

/-- Whether there is room is decidable. -/
def decidableRoomAlong (bound : Nat) : (wrappers : List String) →
    (steps : List (String × List String)) → (v : Json) → Decidable (RoomAlong bound wrappers steps v)
  | wrappers, [], v => inferInstanceAs (Decidable (v.depth + wrappers.length ≤ bound))
  | wrappers, (key, inner) :: steps, v =>
    have : Decidable (∀ u, v.core.field? key = some u → RoomAlong bound inner steps u) :=
      match v.core.field? key with
      | none => isTrue fun _ h => absurd h.symm (Option.some_ne_none _)
      | some u =>
        have := decidableRoomAlong bound inner steps u
        decidable_of_iff (RoomAlong bound inner steps u)
          ⟨fun h _ heq => Option.some.inj heq ▸ h, fun h => h u rfl⟩
    inferInstanceAs (Decidable (v.depth + wrappers.length ≤ bound
      ∧ ∀ u, v.core.field? key = some u → RoomAlong bound inner steps u))

instance (bound : Nat) (wrappers : List String) (steps : List (String × List String)) (v : Json) :
    Decidable (RoomAlong bound wrappers steps v) := decidableRoomAlong bound wrappers steps v

end Json

namespace Resolver

variable {d : Nat} {v : Json}

/-- A field is read from the core of a chain within the bound. -/
theorem field?_eq_of_depth_le (h : v.depth ≤ d) (key : String) :
    (Resolver.mk d).field? v key = v.core.field? key := by
  rw [field?, unwrap_eq_ite]
  by_cases hnull : v.core = .null
  · rw [if_neg fun hboth => hboth.2 hnull, hnull]
    rfl
  · rw [if_pos ⟨h, hnull⟩]
    rfl

/-- **The image of what is inside** stands in the same wrappers. -/
theorem unwrap_mapCore {r : Resolver} {f : Json → Json} (h : r.unwrap v = some u)
    (hf : (f u).wrapped? = none) (hnull : f u ≠ .null) : r.unwrap (v.mapCore f) = some (f u) := by
  obtain ⟨d⟩ := r
  rw [unwrap_eq_ite] at h
  obtain ⟨⟨hdepth, -⟩, hcore⟩ := Option.ite_none_right_eq_some.1 h
  obtain rfl : v.core = u := Option.some.inj hcore
  obtain ⟨hsame, himage⟩ := Json.depth_core_mapCore hf
  rw [unwrap_eq_ite, hsame, himage, if_pos ⟨hdepth, hnull⟩]

/-- **Wrappers along a path are not seen** at its end. -/
theorem bind_unwrap_fieldPath?_rewrap {wrappers : List String} {steps : List (String × List String)}
    (hkeys : ∀ key ∈ wrappers, key ∈ valueKeys)
    (hstepKeys : ∀ step ∈ steps, ∀ key ∈ step.2, key ∈ valueKeys)
    (hroom : v.RoomAlong d wrappers steps) :
    ((Resolver.mk d).fieldPath? (v.rewrap wrappers steps) (steps.map Prod.fst)).bind
        (Resolver.mk d).unwrap
      = ((Resolver.mk d).fieldPath? v (steps.map Prod.fst)).bind (Resolver.mk d).unwrap := by
  -- the path decides which wrappers come next, so the induction is on its steps, for all values
  induction steps generalizing v wrappers with
  | nil =>
    have hdepth : (v.wrapAll wrappers).depth ≤ d := by
      rw [Json.depth_wrapAll hkeys]
      exact hroom
    change (Resolver.mk d).unwrap (v.wrapAll wrappers) = (Resolver.mk d).unwrap v
    rw [unwrap_eq_ite, unwrap_eq_ite, Json.core_wrapAll hkeys]
    simp only [hdepth, Nat.le_of_add_right_le hroom, true_and]
  | cons step steps ih =>
    obtain ⟨key, inner⟩ := step
    obtain ⟨hinner, hstepKeys⟩ := List.forall_mem_cons.1 hstepKeys
    obtain ⟨hdepth, hnext⟩ := hroom
    have hplain := Json.wrapped?_mapField_eq_none key
      (fun u => (u.rewrapInside steps).wrapAll inner) v.wrapped?_core
    obtain ⟨hsame, hcore⟩ := Json.depth_core_mapCore hplain
    have hfield : (Resolver.mk d).field? (v.rewrap wrappers ((key, inner) :: steps)) key
        = (v.core.field? key).map (Json.rewrap inner steps) := by
      rw [Json.rewrap, Json.rewrapInside, field?_eq_of_depth_le, Json.core_wrapAll hkeys, hcore,
        Json.field?_mapField_self]
      · rfl
      · rw [Json.depth_wrapAll hkeys, hsame]
        exact hdepth
    rw [List.map_cons, fieldPath?, fieldPath?, hfield,
      field?_eq_of_depth_le (Nat.le_of_add_right_le hdepth)]
    cases hu : v.core.field? key with
    | none => rfl
    | some u => exact ih hinner hstepKeys (hnext u hu)

/-- **A path does not see wrappers at any level**, as long as each chain on its way stays within the
bound; **and a path is followed in two parts**. -/
theorem fieldPath?_through_wrappers (d : Nat) (v : Json) :
    (∀ (wrappers : List String) (steps : List (String × List String)),
      (∀ key ∈ wrappers, key ∈ valueKeys) → (∀ step ∈ steps, ∀ key ∈ step.2, key ∈ valueKeys) →
      v.RoomAlong d wrappers steps →
        ((Resolver.mk d).fieldPath? (v.rewrap wrappers steps) (steps.map Prod.fst)).bind
            (Resolver.mk d).unwrap
          = ((Resolver.mk d).fieldPath? v (steps.map Prod.fst)).bind (Resolver.mk d).unwrap)
      ∧ ∀ p q : List String, (Resolver.mk d).fieldPath? v (p ++ q)
          = ((Resolver.mk d).fieldPath? v p).bind ((Resolver.mk d).fieldPath? · q) :=
  ⟨fun _ _ hkeys hstepKeys hroom => bind_unwrap_fieldPath?_rewrap hkeys hstepKeys hroom,
    (Resolver.mk d).fieldPath?_append v⟩

/-- A colour among the styles of some props, read past four wrappers more; the bound just suffices
for those around the colour. -/
theorem fieldPath?_through_wrappers_color :
    ((Resolver.mk 3).fieldPath?
        (Json.rewrap ["const"] [("style", ["value"]), ("color", ["const", "value"])]
          (.wrap "properties" (.object [("style", .wrap "properties"
            (.object [("color", .wrap "const" (.string "#fff"))]))])))
        ["style", "color"]).bind (Resolver.mk 3).unwrap = some (.string "#fff") := by
  obtain ⟨hwrappers, -⟩ := fieldPath?_through_wrappers 3 (.wrap "properties"
    (.object [("style", .wrap "properties" (.object [("color", .wrap "const" (.string "#fff"))]))]))
  refine (hwrappers ["const"] [("style", ["value"]), ("color", ["const", "value"])] (by decide)
    (by decide) (by decide +kernel)).trans ?_
  decide

end Resolver

end ScreenLayout
