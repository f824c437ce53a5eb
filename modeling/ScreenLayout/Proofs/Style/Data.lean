import ScreenLayout.Proofs.Json.Fields
import ScreenLayout.Proofs.Style.Entrywise

/-!
# Proofs/Style/Data — a style as data, member by member

The data of a style has a member for each property, and one for the gradient, which hides a property
of its name.  No two members share a name, so members are look-ups; and where each entry of a
dictionary writes under its own name alone, the compiled style is read entry by entry too.

* `Style.field?_toJson` — what the data of a style has under a name.
* `Style.nodup_members` — the members of a style have different names.
* `get?_compile_of_own` — a dictionary whose entries keep to their own names.
-/

namespace ScreenLayout

/-! ## The members of a style -/

namespace Style

variable {s : Style} {g : Gradient}

/-- The members of the properties of a style. -/
def propertyMembers (s : Style) : List (String × Json) :=
  s.properties.entries.map fun e => (e.1, e.2.toJson)

theorem members_of_no_gradient (hg : s.gradient = none) : s.toJson.members = s.propertyMembers := by
  rw [toJson, hg]
  rfl

/-- A gradient hides a property of its name. -/
theorem members_of_hidden (hg : s.gradient = some g) (hhidden : s.contains gradientKey) :
    s.toJson.members
      = s.propertyMembers.map fun e => (e.1, if e.1 = gradientKey then g.toJson else e.2) := by
  rw [toJson, hg]
  dsimp only
  rw [if_pos hhidden]
  rfl

theorem members_of_last (hg : s.gradient = some g) (hlast : s.contains gradientKey = false) :
    s.toJson.members = s.propertyMembers ++ [(gradientKey, g.toJson)] := by
  rw [toJson, hg]
  dsimp only
  rw [if_neg (Bool.eq_false_iff.1 hlast)]
  rfl

theorem lookup_propertyMembers (s : Style) (name : String) :
    s.propertyMembers.lookup name = (s.get? name).map StyleValue.toJson :=
  lookup_map_val (fun _ => StyleValue.toJson) _ name

/-- **What the data of a style has under a name**: the gradient under its own, and else a property. -/
theorem field?_toJson (s : Style) (name : String) : s.toJson.field? name =
    (if name = gradientKey then s.gradient.map Gradient.toJson else none).or
      ((s.get? name).map StyleValue.toJson) := by
  rw [Json.field?_eq_lookup]
  cases hg : s.gradient with
  | none =>
    rw [members_of_no_gradient hg, lookup_propertyMembers, Option.map_none, ite_self, Option.none_or]
  | some g =>
    cases hcontains : s.contains gradientKey with
    | true =>
      rw [members_of_hidden hg hcontains,
        lookup_map_val (fun key v => if key = gradientKey then g.toJson else v),
        lookup_propertyMembers]
      by_cases hname : name = gradientKey
      · obtain ⟨w, hw⟩ := Option.isSome_iff_exists.1 (hname ▸ hcontains)
        have hget : s.get? name = some w := hw
        rw [hget, if_pos hname]
        simp only [hname, if_true]
        rfl
      · simp only [hname, if_false]
        rw [Option.none_or]
        exact Option.map_id'
    | false =>
      rw [members_of_last hg hcontains, List.lookup_append, lookup_propertyMembers]
      by_cases hname : name = gradientKey
      · have hget : s.get? name = none := by
          rw [hname]
          exact Option.isNone_iff_eq_none.1 (Option.isSome_eq_false_iff.1 hcontains)
        rw [hget, hname, if_pos rfl, List.lookup_cons_self]
        rfl
      · rw [if_neg hname, List.lookup_cons, beq_eq_false_iff_ne.2 hname, Option.none_or,
          List.lookup_nil, Option.or_none]

theorem isObject_toJson (s : Style) : s.toJson.isObject := by
  unfold toJson
  dsimp only
  split
  · rfl
  · split <;> rfl

theorem nodup_names (s : Style) : (s.propertyMembers.map Prod.fst).Nodup := by
  rw [propertyMembers, List.map_map]
  exact s.properties.nodup_names

/-- **The members of a style have different names.** -/
theorem nodup_members (s : Style) : (s.toJson.members.map Prod.fst).Nodup := by
  cases hg : s.gradient with
  | none =>
    rw [members_of_no_gradient hg]
    exact s.nodup_names
  | some g =>
    cases hcontains : s.contains gradientKey with
    | true =>
      rw [members_of_hidden hg hcontains, List.map_map]
      exact s.nodup_names
    | false =>
      rw [members_of_last hg hcontains, List.map_append]
      refine List.nodup_append.2 ⟨s.nodup_names, List.pairwise_singleton _ _, ?_⟩
      rintro _ hmem _ hlast rfl
      rw [List.map_singleton, List.mem_singleton] at hlast
      rw [hlast] at hmem
      obtain ⟨⟨name, v⟩, he, hname⟩ := List.mem_map.1 hmem
      have hget := (lookup_eq_some_iff_mem s.nodup_names).2 he
      rw [lookup_propertyMembers, show name = gradientKey from hname] at hget
      obtain ⟨w, hw, -⟩ := Option.map_eq_some_iff.1 hget
      rw [contains_eq_isSome, hw] at hcontains
      cases hcontains

/-- **Members are look-ups.** -/
theorem mem_members_iff {name : String} {v : Json} :
    (name, v) ∈ s.toJson.members ↔ s.toJson.field? name = some v := by
  rw [Json.field?_eq_lookup, lookup_eq_some_iff_mem s.nodup_members]

end Style

/-! ## What is compiled under a name -/

/-- A patch of one write answers under its name. -/
theorem get?_apply_one (name : String) (w : StyleValue) (key : String) :
    (Style.empty.apply (.one name w)).get? key = if key = name then some w else none := by
  rw [Style.get?_apply, Style.get?_empty, Option.or_none, Properties.lastWrite?]
  exact (Properties.lookup_cons_eq_ite name w [] key).trans (by rw [List.lookup_nil])

/-- **What is compiled under a name** is what the last entry that writes there writes. -/
theorem get?_compile_eq_some_iff {c : Config} {entries : List (String × Json)} {name : String}
    {w : StyleValue} : (compile c entries).style.get? name = some w ↔
      ∃ front entry back, entries = front ++ entry :: back ∧
        (styleAlone c entry).get? name = some w ∧
        ∀ later ∈ back, (styleAlone c later).contains name = false := by
  rw [get?_compile, List.findSome?_eq_some_iff]
  constructor
  · rintro ⟨back, entry, front, hentries, hwrite, hlater⟩
    refine ⟨front.reverse, entry, back.reverse, ?_, hwrite, fun later hmem => ?_⟩
    · have hreverse := congrArg List.reverse hentries
      rwa [List.reverse_reverse, List.reverse_append, List.reverse_cons, List.append_assoc]
        at hreverse
    · have hnone : (styleAlone c later).get? name = none := hlater later (List.mem_reverse.1 hmem)
      rw [Style.contains_eq_isSome, hnone]
      rfl
  · rintro ⟨front, entry, back, rfl, hwrite, hlater⟩
    refine ⟨back.reverse, entry, front.reverse, by simp, hwrite, fun later hmem => ?_⟩
    have hnone := hlater later (List.mem_reverse.1 hmem)
    rw [Style.contains_eq_isSome] at hnone
    exact Option.isNone_iff_eq_none.1 (Option.isSome_eq_false_iff.1 hnone)

/-! ## Entries that keep to their own names -/

/-- **Where each entry writes under its own name alone**, what is compiled under a name is what its
entry writes there. -/
theorem get?_compile_of_own {c : Config} {entries : List (String × Json)}
    (hnodup : (entries.map Prod.fst).Nodup)
    (hown : ∀ entry ∈ entries, ∀ name, (styleAlone c entry).contains name → name = entry.1)
    {name : String} {v : Json} (hentry : (name, v) ∈ entries) :
    (compile c entries).style.get? name = (styleAlone c (name, v)).get? name := by
  refine Option.ext fun w => get?_compile_eq_some_iff.trans ⟨?_, fun hw => ?_⟩
  · rintro ⟨front, ⟨other, u⟩, back, rfl, hw, -⟩
    have hother : (other, u) ∈ front ++ (other, u) :: back :=
      List.mem_append_right _ List.mem_cons_self
    obtain rfl : name = other := hown _ hother name (by rw [Style.contains_eq_isSome, hw]; rfl)
    rw [← lookup_eq_some_iff_mem hnodup] at hentry hother
    obtain rfl : v = u := Option.some.inj (hentry.symm.trans hother)
    exact hw
  · obtain ⟨front, back, rfl⟩ := List.append_of_mem hentry
    refine ⟨front, (name, v), back, rfl, hw, fun later hlater => ?_⟩
    refine Bool.eq_false_iff.2 fun hcontains => ?_
    have hmem : later ∈ front ++ (name, v) :: back :=
      List.mem_append_right _ (List.mem_cons_of_mem _ hlater)
    have hname : name = later.1 := hown later hmem name hcontains
    rw [List.map_append, List.map_cons] at hnodup
    have hfresh := (List.nodup_cons.1 (List.nodup_append.1 hnodup).2.1).1
    exact hfresh (List.mem_map.2 ⟨later, hlater, hname.symm⟩)

end ScreenLayout
