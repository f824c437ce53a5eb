import Mathlib.Data.List.Chain
import ScreenLayout.Proofs.Document.Wrapping
import ScreenLayout.Proofs.Value.Place

/-!
# Proofs/Document/Search — the search for the entries of a document

The search looks at one value after the other, each at its place in the document, and goes on to the
value under a key for sections, else to the one inside all wrappers.  It stops where unwrapping stays
in place, and when it has looked at one value more than the bound allows:

    {layout: {value: {sections: [..]}}}   ──▸   the document, layout, layout.value, …sections

So it looks at no more than `bound + 2` values, each properly inside the one before, and what it finds
it finds again with any greater bound, by the same steps.

* `Document.next?` — the value looked at next; `Document.isInside_of_next?` — it lies properly inside.
* `Document.search` — all values looked at, and the entries found; `Document.found_search` — they are
  the entries the document leads to.
* `Document.isRun_searchWithin` — where it begins, how it goes on and where it ends.
* `Document.searchWithin_mono` — a search that has found goes the same way with a greater bound.
* `Document.search_bounded` — the bound, the steps and the test it stops at.
-/

namespace ScreenLayout.Document

variable {r : Resolver} {n m : Nat} {x y : Located} {entries : List Json}

/-! ## One step -/

/-- **The value looked at next**: under a key for sections, else inside all wrappers, unless that is
the same place. -/
def next? (r : Resolver) (x : Located) : Option Located :=
  match x.firstField? sectionKeys with
  | some inner => some inner
  | none => match r.locate x with
    | some y => if y.place = x.place then none else some y
    | none => none

/-- **It lies properly inside.** -/
theorem isInside_of_next? (h : next? r x = some y) : y.IsInside x := by
  unfold next? at h
  split at h
  · rename_i inner hinner
    obtain rfl := Option.some.inj h
    exact Located.isInside_of_firstField? hinner
  · split at h
    · rename_i z hz
      obtain ⟨hplace, hy⟩ := Option.ite_none_left_eq_some.1 h
      obtain rfl := Option.some.inj hy
      exact Resolver.isInside_of_locate (mt (Resolver.place_locate_eq_iff hz).2 hplace) hz
    · cases h

/-- **The next value is one step nearer to the sections.** -/
theorem map_value_next? (r : Resolver) (x : Located) :
    (next? r x).map Located.value = step? r x.value := by
  rw [next?, step?, ← x.map_value_firstField? sectionKeys]
  cases x.firstField? sectionKeys with
  | some inner => rfl
  | none =>
    rw [← r.map_value_locate x]
    cases hlocate : r.locate x with
    | none => cases x.value.wrapped? <;> rfl
    | some y =>
      have hplace := Resolver.place_locate_eq_iff hlocate
      dsimp only [Option.map_none]
      cases hw : x.value.wrapped? with
      | none => rw [if_pos (hplace.2 hw)]; rfl
      | some inner => rw [if_neg fun heq => Option.some_ne_none _ (hw.symm.trans (hplace.1 heq))]

theorem next?_mono (hnm : n ≤ m) (h : next? ⟨n⟩ x = some y) : next? ⟨m⟩ x = some y := by
  unfold next? at h ⊢
  cases hkeys : x.firstField? sectionKeys with
  | some inner => rw [hkeys] at h; exact h
  | none =>
    rw [hkeys] at h
    cases hlocate : (Resolver.mk n).locate x with
    | none => rw [hlocate] at h; cases h
    | some z =>
      rw [hlocate] at h
      rw [Resolver.locate_mono hnm hlocate]
      exact h

/-! ## All steps -/

/-- **A search**: the values it looks at, in their order, and the entries it finds. -/
structure Search where
  visited : List Located
  found : Option (List Json)

/-- A search that goes on after a first value. -/
def Search.after (x : Located) (s : Search) : Search := { s with visited := x :: s.visited }

/-- The search from a value on, in which `left` values may be opened; one past them is looked at in
vain. -/
def searchWithin (r : Resolver) : (left : Nat) → Located → Search
  | 0, x => ⟨[x], none⟩
  | left + 1, x => match x.value with
    | .array items => ⟨[x], some items⟩
    | _ => match next? r x with
      | some y => (searchWithin r left y).after x
      | none => ⟨[x], none⟩

/-- **The search for the entries of a document**, which may open it and one value more for each step
of the bound. -/
def search (r : Resolver) (doc : Json) : Search := searchWithin r (r.bound + 1) ⟨[], doc⟩

theorem ne_array_of_step? {doc next : Json} (h : step? r doc = some next) (items : List Json) :
    doc ≠ .array items := by
  rintro rfl
  cases h

theorem step?_of_next? (h : next? r x = some y) : step? r x.value = some y.value := by
  rw [← map_value_next?, h]
  rfl

theorem step?_eq_none_of_next? (h : next? r x = none) : step? r x.value = none := by
  rw [← map_value_next?, h]
  rfl

theorem entriesWithin?_zero (r : Resolver) {doc : Json} (hdoc : ∀ items, doc ≠ .array items) :
    entriesWithin? r 0 doc = none := by
  cases doc with
  | array items => exact absurd rfl (hdoc items)
  | _ => rfl

/-- **A search goes on from the next value**, if there is one. -/
theorem searchWithin_of_next? (h : next? r x = some y) (n : Nat) :
    searchWithin r (n + 1) x = (searchWithin r n y).after x := by
  rw [searchWithin]
  split
  · rename_i items hitems
    exact absurd hitems (ne_array_of_step? (step?_of_next? h) items)
  · rw [h]

/-- **It ends where there is none.** -/
theorem searchWithin_of_next?_eq_none (h : next? r x = none) (n : Nat) :
    searchWithin r (n + 1) x = ⟨[x], entriesWithin? r n x.value⟩ := by
  rw [searchWithin]
  split
  · rename_i items hitems
    rw [hitems, entriesWithin?_array]
  · rename_i hitems
    rw [h]
    cases n with
    | zero => rw [entriesWithin?_zero r hitems]
    | succ n => rw [entriesWithin?_succ r n hitems, step?_eq_none_of_next? h]; rfl

/-- **The entries found are those the value leads to.** -/
theorem found_searchWithin (r : Resolver) (n : Nat) (x : Located) :
    (searchWithin r (n + 1) x).found = entriesWithin? r n x.value := by
  induction n generalizing x with
  | zero =>
    cases h : next? r x with
    | none => rw [searchWithin_of_next?_eq_none h]
    | some y =>
      rw [searchWithin_of_next? h, entriesWithin?_zero r (ne_array_of_step? (step?_of_next? h))]
      rfl
  | succ n ih =>
    cases h : next? r x with
    | none => rw [searchWithin_of_next?_eq_none h]
    | some y =>
      have hstep := step?_of_next? h
      rw [searchWithin_of_next? h, entriesWithin?_succ r n (ne_array_of_step? hstep), hstep]
      exact ih y

theorem found_search (r : Resolver) (doc : Json) : (search r doc).found = entries? r doc :=
  found_searchWithin r r.bound ⟨[], doc⟩

/-! ## How far a search goes -/

/-- **A search looks at one value more than it may open.** -/
theorem length_visited_searchWithin_le (r : Resolver) (n : Nat) (x : Located) :
    (searchWithin r n x).visited.length ≤ n + 1 := by
  induction n generalizing x with
  | zero => exact Nat.le_refl 1
  | succ n ih =>
    cases h : next? r x with
    | none => rw [searchWithin_of_next?_eq_none h]; exact Nat.le_add_left 1 (n + 1)
    | some y => rw [searchWithin_of_next? h]; exact Nat.succ_le_succ (ih y)

/-- **The run of a search from a value**: it begins there, goes on from each value to the next, and ends
where none follows or no value may be opened any more. -/
structure IsRun (r : Resolver) (left : Nat) (x : Located) (visited : List Located) : Prop where
  start : visited.head? = some x
  steps : visited.IsChain fun y z => next? r y = some z
  stop : ∀ last ∈ visited.getLast?, next? r last = none ∨ visited.length = left + 1

/-- **What a search looks at is its run.** -/
theorem isRun_searchWithin (r : Resolver) (n : Nat) (x : Located) :
    IsRun r n x (searchWithin r n x).visited := by
  induction n generalizing x with
  | zero => exact ⟨rfl, .singleton x, fun _ _ => .inr rfl⟩
  | succ n ih =>
    cases h : next? r x with
    | none =>
      rw [searchWithin_of_next?_eq_none h]
      refine ⟨rfl, .singleton x, fun last hlast => .inl ?_⟩
      obtain rfl := Option.some.inj hlast
      exact h
    | some y =>
      obtain ⟨hstart, hsteps, hstop⟩ := ih y
      rw [searchWithin_of_next? h, Search.after]
      obtain ⟨rest, hrest⟩ := List.head?_eq_some_iff.1 hstart
      rw [hrest] at hsteps hstop ⊢
      refine ⟨rfl, .cons_cons h hsteps, fun last hlast => ?_⟩
      rw [List.getLast?_cons_cons] at hlast
      exact (hstop last hlast).imp_right (congrArg (· + 1))

/-- **Each value of a run is properly inside all before.** -/
theorem IsRun.isInside {visited : List Located} (h : IsRun r n x visited) :
    visited.Pairwise fun y z => z.IsInside y := by
  have hsteps : visited.IsChain fun y z => z.IsInside y :=
    h.steps.imp fun _ _ => isInside_of_next?
  have htrans : IsTrans Located fun y z => z.IsInside y := ⟨fun _ _ _ hzy hwz => hwz.trans hzy⟩
  exact hsteps.pairwise

/-! ## A greater bound -/

theorem eq_array_of_entriesWithin? {doc : Json} (hstep : step? r doc = none)
    (h : entriesWithin? r n doc = some entries) : doc = .array entries := by
  by_cases harray : ∃ items, doc = .array items
  · obtain ⟨items, rfl⟩ := harray
    rw [entriesWithin?_array] at h
    exact congrArg Json.array (Option.some.inj h)
  · have hdoc : ∀ items, doc ≠ .array items := fun items heq => harray ⟨items, heq⟩
    cases n with
    | zero => rw [entriesWithin?_zero r hdoc] at h; cases h
    | succ n => rw [entriesWithin?_succ r n hdoc, hstep] at h; cases h

/-- **A search that has found goes the same way with a greater bound.** -/
theorem searchWithin_mono {k l : Nat} (hnm : n ≤ m) (hkl : k ≤ l)
    (h : (searchWithin ⟨n⟩ k x).found = some entries) :
    searchWithin ⟨m⟩ l x = searchWithin ⟨n⟩ k x := by
  induction k generalizing l x with
  | zero => cases h
  | succ k ih =>
    obtain ⟨l, rfl⟩ := Nat.exists_eq_add_of_le' (Nat.le_trans k.succ_pos hkl)
    cases hnext : next? ⟨n⟩ x with
    | some y =>
      rw [searchWithin_of_next? hnext] at h ⊢
      rw [searchWithin_of_next? (next?_mono hnm hnext), ih (Nat.le_of_succ_le_succ hkl) h]
    | none =>
      rw [found_searchWithin] at h
      have hitems := eq_array_of_entriesWithin? (step?_eq_none_of_next? hnext) h
      rw [searchWithin, searchWithin, hitems]

/-! ## The search as a whole -/

/-- **The test the search stops at**, that unwrapping stays in place, tells exactly the objects without
a wrapper key; and it comes to the same as comparing the values. -/
theorem stays_in_place_iff (r : Resolver) (place : List String) (fields : List (String × Json)) :
    ((∃ y, r.locate ⟨place, .object fields⟩ = some y ∧ y.place = place) ↔
        ∀ key ∈ wrapperKeys, (Json.object fields).field? key = none)
      ∧ ∀ y, r.locate ⟨place, .object fields⟩ = some y →
          (y.place = place ↔ y.value = .object fields) := by
  refine ⟨⟨?_, fun hkeys => ?_⟩, fun y hy => (Resolver.value_locate_eq_iff hy).symm⟩
  · rintro ⟨y, hy, hplace⟩ key hkey
    exact Json.field?_of_wrapped?_eq_none ((Resolver.place_locate_eq_iff hy).1 hplace) hkey
  · have hplain : (Json.object fields).wrapped? = none := List.findSome?_eq_none_iff.2 hkeys
    exact ⟨_, r.locate_eq_self hplain nofun, rfl⟩

/-- **The search for the entries ends within the bound, and a greater bound changes nothing it has
found.**  It looks at no more than `d + 2` values: at the document first, then at the next value of each,
until there is none or the bound is used up.  Each is at its place in the document and properly inside
those before; the test it stops at is the same for places and for values; and what it finds, it finds
by the same steps with any greater bound. -/
theorem search_bounded (d : Nat) (doc : Json) :
    (search ⟨d⟩ doc).found = entries? ⟨d⟩ doc
      ∧ (search ⟨d⟩ doc).visited.length ≤ d + 2
      ∧ IsRun ⟨d⟩ (d + 1) ⟨[], doc⟩ (search ⟨d⟩ doc).visited
      ∧ (∀ x ∈ (search ⟨d⟩ doc).visited, doc.at? x.place = some x.value)
      ∧ (search ⟨d⟩ doc).visited.Pairwise
          (fun x y => y.IsInside x ∧ sizeOf y.value < sizeOf x.value)
      ∧ (∀ x, ((Resolver.mk d).locate x).map Located.value = (Resolver.mk d).unwrap x.value)
      ∧ (∀ place fields,
          ((∃ y, (Resolver.mk d).locate ⟨place, .object fields⟩ = some y ∧ y.place = place) ↔
              ∀ key ∈ wrapperKeys, (Json.object fields).field? key = none)
            ∧ ∀ y, (Resolver.mk d).locate ⟨place, .object fields⟩ = some y →
                (y.place = place ↔ y.value = .object fields))
      ∧ ∀ e entries, d ≤ e → entries? ⟨d⟩ doc = some entries →
          entries? ⟨e⟩ doc = some entries ∧ search ⟨e⟩ doc = search ⟨d⟩ doc := by
  have hrun : IsRun ⟨d⟩ (d + 1) ⟨[], doc⟩ (search ⟨d⟩ doc).visited :=
    isRun_searchWithin ⟨d⟩ (d + 1) ⟨[], doc⟩
  have hinside := hrun.isInside
  refine ⟨found_search ⟨d⟩ doc, length_visited_searchWithin_le ⟨d⟩ (d + 1) ⟨[], doc⟩, hrun,
    fun x hx => ?_, hinside.imp fun h => ⟨h, h.sizeOf_lt⟩, (Resolver.mk d).map_value_locate,
    stays_in_place_iff ⟨d⟩, fun e entries hle hfound => ⟨entries?_mono hle hfound, ?_⟩⟩
  · obtain ⟨rest, hrest⟩ := List.head?_eq_some_iff.1 hrun.start
    rw [hrest] at hx hinside
    obtain rfl | hx := List.mem_cons.1 hx
    · rfl
    · obtain ⟨keys, -, hplace, hat⟩ := List.rel_of_pairwise_cons hinside hx
      rw [hplace]
      exact hat
  · rw [← found_search] at hfound
    exact searchWithin_mono hle (Nat.succ_le_succ hle) hfound

/-- Five values are looked at, the last of them the array of entries. -/
example : (search ⟨32⟩ (.object [("layout", .wrap "value" (.object [("sections",
      .wrap "const" (.array [.string "a"]))]))])).visited.map Located.place
    = [[], ["layout"], ["layout", "value"], ["layout", "value", "sections"],
        ["layout", "value", "sections", "const"]] := by
  decide +kernel

end ScreenLayout.Document
