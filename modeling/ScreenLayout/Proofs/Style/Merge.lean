import Mathlib.Data.List.Forall2
import ScreenLayout.Style.Basic

/-!
# Proofs/Style/Merge — styles as maps, and what a merge answers

A style is determined by its answers: equal look-ups and equal gradients are equal styles.  Every law
of writing is therefore a law of look-ups, where a later write hides an earlier one.

* `Style.ext_get?` — a style is its look-ups and its gradient.
* `Style.get?_apply`, `Style.get?_merge` — the later write is read, the earlier one behind it.
* `Style.merge_assoc`, `Style.merge_comm_of_disjoint` — the algebra of merging.
* `Style.get?_overlaid` — of several styles laid over one another the last that knows a name answers.
-/

namespace ScreenLayout

namespace Properties

/-! ## Look-ups determine the properties -/

theorem lookup_eq_none_of_forall_lt {name : String} {entries : List (String × StyleValue)}
    (h : ∀ e ∈ entries, name < e.1) : entries.lookup name = none := by
  rw [List.lookup_eq_none_iff]
  intro e he
  have hne : name ≠ e.1 := fun heq => String.lt_irrefl _ (heq ▸ h e he)
  simpa using hne

/-- The least name of one ordered list is the least of another with the same look-ups: neither can
lie below all names of the other and still be found there. -/
theorem not_lt_of_lookup_eq {name other : String} {v w : StyleValue}
    {xs ys : List (String × StyleValue)} (hy : Ordered ((other, w) :: ys))
    (h : ∀ key, ((name, v) :: xs).lookup key = ((other, w) :: ys).lookup key) :
    ¬ name < other := by
  intro hlt
  have hnone : ((other, w) :: ys).lookup name = none := by
    refine lookup_eq_none_of_forall_lt fun e he => ?_
    rcases List.mem_cons.1 he with rfl | he
    · exact hlt
    · exact String.lt_trans hlt ((List.pairwise_cons.1 hy).1 e he)
  have hsome : ((name, v) :: xs).lookup name = some v := List.lookup_cons_self
  rw [h name, hnone] at hsome
  cases hsome

theorem eq_of_lookup_eq {xs ys : List (String × StyleValue)} (hx : Ordered xs) (hy : Ordered ys)
    (h : ∀ key, xs.lookup key = ys.lookup key) : xs = ys := by
  induction xs generalizing ys with
  | nil =>
    rcases ys with _ | ⟨⟨other, w⟩, ys⟩
    · rfl
    · simpa using h other
  | cons head xs ih =>
    obtain ⟨name, v⟩ := head
    rcases ys with _ | ⟨⟨other, w⟩, ys⟩
    · simpa using h name
    · have hge := not_lt_of_lookup_eq hx fun key => (h key).symm
      obtain rfl : name = other := Decidable.of_not_not fun hne =>
        not_lt_of_lookup_eq hy h (lt_of_not_lt_of_ne hge (Ne.symm hne))
      have hvalue : v = w := by simpa using h name
      subst hvalue
      obtain ⟨hxhead, hxrest⟩ := List.pairwise_cons.1 hx
      obtain ⟨hyhead, hyrest⟩ := List.pairwise_cons.1 hy
      refine congrArg _ (ih hxrest hyrest fun key => ?_)
      by_cases hkey : key = name
      · rw [hkey, lookup_eq_none_of_forall_lt hxhead, lookup_eq_none_of_forall_lt hyhead]
      · have hrest := h key
        rwa [lookup_cons_eq_ite, lookup_cons_eq_ite, if_neg hkey, if_neg hkey] at hrest

/-- **Properties are their look-ups.** -/
theorem ext_get? {p q : Properties} (h : ∀ name, p.get? name = q.get? name) : p = q := by
  obtain ⟨xs, hx⟩ := p
  obtain ⟨ys, hy⟩ := q
  obtain rfl : xs = ys := eq_of_lookup_eq hx hy h
  rfl

/-! ## Several writes -/

/-- The value of the last of several writes to a name. -/
def lastWrite? (writes : List (String × StyleValue)) (name : String) : Option StyleValue :=
  writes.reverse.lookup name

theorem lastWrite?_append (front back : List (String × StyleValue)) (name : String) :
    lastWrite? (front ++ back) name = (lastWrite? back name).or (lastWrite? front name) := by
  rw [lastWrite?, List.reverse_append, List.lookup_append]
  rfl

theorem lastWrite?_nil (name : String) : lastWrite? [] name = none := rfl

theorem lastWrite?_singleton (key : String) (v : StyleValue) (name : String) :
    lastWrite? [(key, v)] name = if name = key then some v else none :=
  lookup_cons_eq_ite key v [] name

/-- A write for each value there is, of one at most. -/
theorem lastWrite?_toList_map {α : Type} (a : Option α) (key : String) (f : α → StyleValue)
    (name : String) :
    lastWrite? (a.toList.map fun a => (key, f a)) name = if name = key then a.map f else none := by
  cases a with
  | none => exact (ite_self none).symm
  | some a => exact lastWrite?_singleton key (f a) name

/-- **Several writes are read through the last one** to a name; the others show what was there. -/
theorem get?_insertMany (p : Properties) (writes : List (String × StyleValue)) (name : String) :
    (p.insertMany writes).get? name = (lastWrite? writes name).or (p.get? name) := by
  induction writes generalizing p with
  | nil => rfl
  | cons w writes ih =>
    have hlast : lastWrite? (w :: writes) name
        = (lastWrite? writes name).or (if name = w.1 then some w.2 else none) := by
      rw [lastWrite?, List.reverse_cons, List.lookup_append, lookup_cons_eq_ite]
      rfl
    have hstep : (p.insertMany (w :: writes)).get? name
        = ((p.insert w.1 w.2).insertMany writes).get? name := rfl
    rw [hstep, ih, hlast, get?_insert, Option.or_assoc]
    split <;> rfl

theorem size_insert {p : Properties} {name : String} (h : p.get? name = none) (v : StyleValue) :
    (p.insert name v).size = p.size + 1 := by
  obtain ⟨entries, ordered⟩ := p
  change (insertEntry name v entries).length = entries.length + 1
  change entries.lookup name = none at h
  clear ordered
  induction entries with
  | nil => rfl
  | cons head rest ih =>
    obtain ⟨other, w⟩ := head
    rw [lookup_cons_eq_ite] at h
    have hne : name ≠ other := fun heq => by
      rw [if_pos heq] at h
      cases h
    rw [if_neg hne] at h
    rw [insertEntry]
    split
    · rfl
    · rw [List.length_cons, ih h, List.length_cons]

/-- **Writes to new and different names** add a property each. -/
theorem size_insertMany {p : Properties} {writes : List (String × StyleValue)}
    (hnew : ∀ e ∈ writes, p.get? e.1 = none) (hnodup : (writes.map Prod.fst).Nodup) :
    (p.insertMany writes).size = p.size + writes.length := by
  induction writes generalizing p with
  | nil => rfl
  | cons w writes ih =>
    obtain ⟨hw, hnew⟩ := List.forall_mem_cons.1 hnew
    obtain ⟨hother, hnodup⟩ := List.nodup_cons.1 hnodup
    have hstep : (p.insertMany (w :: writes)).size = ((p.insert w.1 w.2).insertMany writes).size := rfl
    have hrest : ∀ e ∈ writes, (p.insert w.1 w.2).get? e.1 = none := by
      intro e he
      have hne : e.1 ≠ w.1 := fun heq => hother (heq ▸ List.mem_map_of_mem he)
      rw [get?_insert, if_neg hne]
      exact hnew e he
    rw [hstep, ih hrest hnodup, size_insert hw, List.length_cons]
    omega

/-! ## Properties side by side -/

section SideBySide

variable {R : String × StyleValue → String × StyleValue → Prop} (hname : ∀ {a b}, R a b → a.1 = b.1)
include hname

/-- A property is put at the same place in both lists. -/
theorem forall₂_insertEntry {name : String} {v w : StyleValue} (hwrite : R (name, v) (name, w))
    {xs ys : List (String × StyleValue)} (h : List.Forall₂ R xs ys) :
    List.Forall₂ R (insertEntry name v xs) (insertEntry name w ys) := by
  induction h with
  | nil => exact .cons hwrite .nil
  | @cons a b xs ys hhead hrest ih =>
    obtain ⟨other, u⟩ := a
    obtain ⟨other', u'⟩ := b
    obtain rfl : other = other' := hname hhead
    rw [insertEntry, insertEntry]
    split
    · exact .cons hwrite (.cons hhead hrest)
    · split
      · exact .cons hwrite hrest
      · exact .cons hhead ih

/-- **Writes side by side** keep properties side by side. -/
theorem forall₂_insertMany {writes writes' : List (String × StyleValue)}
    (hwrites : List.Forall₂ R writes writes') {p q : Properties}
    (h : List.Forall₂ R p.entries q.entries) :
    List.Forall₂ R (p.insertMany writes).entries (q.insertMany writes').entries := by
  induction hwrites generalizing p q with
  | nil => exact h
  | @cons a b writes writes' hhead _ ih =>
    obtain ⟨name, v⟩ := a
    obtain ⟨name', w⟩ := b
    obtain rfl : name = name' := hname hhead
    exact ih (forall₂_insertEntry hname hhead h)

end SideBySide

theorem nodup_names (p : Properties) : p.names.Nodup :=
  p.names_sorted.imp fun {a b} (hlt : a < b) (heq : a = b) => String.lt_irrefl b (heq ▸ hlt)

/-- Properties hold one write to each name, so the last write is the only one. -/
theorem lastWrite?_entries (p : Properties) (name : String) :
    lastWrite? p.entries name = p.get? name := by
  obtain ⟨entries, ordered⟩ := p
  change entries.reverse.lookup name = entries.lookup name
  induction entries with
  | nil => rfl
  | cons head rest ih =>
    obtain ⟨other, w⟩ := head
    obtain ⟨hhead, hrest⟩ := List.pairwise_cons.1 ordered
    rw [List.reverse_cons, List.lookup_append, ih hrest, lookup_cons_eq_ite, lookup_cons_eq_ite]
    by_cases hname : name = other
    · rw [hname, lookup_eq_none_of_forall_lt hhead, if_pos rfl, if_pos rfl, Option.none_or]
    · rw [if_neg hname, if_neg hname, List.lookup_nil, Option.or_none]

end Properties

namespace Style

/-! ## Look-ups of applied and merged styles -/

/-- **A style is its look-ups and its gradient.** -/
theorem ext_get? {s t : Style} (h : ∀ name, s.get? name = t.get? name)
    (hgradient : s.gradient = t.gradient) : s = t := by
  obtain ⟨p, g⟩ := s
  obtain ⟨q, g'⟩ := t
  obtain rfl : p = q := Properties.ext_get? h
  obtain rfl : g = g' := hgradient
  rfl

@[simp] theorem get?_empty (name : String) : empty.get? name = none := rfl

theorem contains_eq_isSome (s : Style) (name : String) :
    s.contains name = (s.get? name).isSome := rfl

/-- **A patch answers with its last write**, and the style before it where it has none. -/
theorem get?_apply (s : Style) (p : StylePatch) (name : String) :
    (s.apply p).get? name = (Properties.lastWrite? p.writes name).or (s.get? name) :=
  s.properties.get?_insertMany p.writes name

theorem gradient_apply (s : Style) (p : StylePatch) :
    (s.apply p).gradient = p.gradient.or s.gradient := by
  cases hp : p.gradient <;> simp [apply, hp]

theorem get?_merge (s upper : Style) (name : String) :
    (s.merge upper).get? name = (upper.get? name).or (s.get? name) := by
  rw [merge, get?_apply, Properties.lastWrite?_entries]
  rfl

theorem gradient_merge (s upper : Style) :
    (s.merge upper).gradient = upper.gradient.or s.gradient := by
  rw [merge, gradient_apply]

/-- **Writing a patch is merging the style it writes by itself.** -/
theorem apply_eq_merge (s : Style) (p : StylePatch) : s.apply p = s.merge (empty.apply p) := by
  refine ext_get? (fun name => ?_) ?_
  · rw [get?_merge, get?_apply, get?_apply, get?_empty, Option.or_none]
  · rw [gradient_merge, gradient_apply, gradient_apply]
    exact (congrArg (Option.or · s.gradient) Option.or_none).symm

/-! ## The algebra of merging -/

theorem merge_assoc (s t u : Style) : (s.merge t).merge u = s.merge (t.merge u) := by
  refine ext_get? (fun name => ?_) ?_
  · simp only [get?_merge, Option.or_assoc]
  · simp only [gradient_merge, Option.or_assoc]

instance : Std.Associative merge := ⟨merge_assoc⟩

theorem merge_empty (s : Style) : s.merge empty = s := rfl

/-- **Styles that share nothing merge in either order.** -/
theorem merge_comm_of_disjoint {s t : Style} (h : ∀ name, s.contains name → ¬ t.contains name)
    (hgradient : ¬ (s.gradient.isSome ∧ t.gradient.isSome)) : s.merge t = t.merge s := by
  have hor : ∀ {α : Type} (a b : Option α), ¬ (a.isSome ∧ b.isSome) → a.or b = b.or a := by
    intro α a b hab
    cases a with
    | none => rw [Option.none_or, Option.or_none]
    | some a => cases b with
      | none => rfl
      | some b => exact absurd ⟨rfl, rfl⟩ hab
  refine ext_get? (fun name => ?_) ?_
  · rw [get?_merge, get?_merge]
    exact hor _ _ fun hboth => h name hboth.2 hboth.1
  · rw [gradient_merge, gradient_merge]
    exact hor _ _ fun hboth => hgradient hboth.symm

/-! ## Several styles laid over one another -/

/-- **Styles merged in their order**, each laid over those before it. -/
def overlaid (styles : List Style) : Style := styles.foldl merge empty

/-- Whatever a merge reads from the upper style first, several styles read from the last one first. -/
theorem read_foldl_merge {α : Type} {f : Style → Option α}
    (hf : ∀ s t : Style, f (s.merge t) = (f t).or (f s)) (styles : List Style) (s : Style) :
    f (styles.foldl merge s) = (styles.reverse.findSome? f).or (f s) := by
  induction styles generalizing s with
  | nil => rfl
  | cons t styles ih =>
    rw [List.foldl_cons, ih, hf, List.reverse_cons, List.findSome?_append, Option.or_assoc,
      List.findSome?_singleton]

/-- **The last style that knows a name answers.** -/
theorem get?_overlaid (styles : List Style) (name : String) :
    (overlaid styles).get? name = styles.reverse.findSome? (·.get? name) := by
  rw [overlaid, read_foldl_merge (f := (·.get? name)) fun s t => get?_merge s t name]
  exact Option.or_none

/-- **The last style with a gradient gives it.** -/
theorem gradient_overlaid (styles : List Style) :
    (overlaid styles).gradient = styles.reverse.findSome? Style.gradient := by
  rw [overlaid, read_foldl_merge (f := Style.gradient) gradient_merge]
  exact Option.or_none

/-- Styles laid over one another beforehand may be laid over another style at once. -/
theorem foldl_merge (s : Style) (styles : List Style) :
    styles.foldl merge s = s.merge (overlaid styles) := by
  have hassoc : styles.foldl merge (s.merge empty) = s.merge (styles.foldl merge empty) :=
    List.foldl_assoc
  rwa [merge_empty] at hassoc

theorem overlaid_append (styles upper : List Style) :
    overlaid (styles ++ upper) = (overlaid styles).merge (overlaid upper) := by
  rw [overlaid, List.foldl_append, foldl_merge]
  rfl

end Style

end ScreenLayout
