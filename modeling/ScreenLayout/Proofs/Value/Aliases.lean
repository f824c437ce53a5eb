import ScreenLayout.Proofs.Value.Resolved
import ScreenLayout.View.Render

/-!
# Proofs/Value/Aliases — one prop under several keys

A prop goes by several keys, and the first of them that gives something to its reader counts.  What
the keys after it hold is not looked at; a key before it holds nothing the reader could use, which for
the reader of mere presence means that there is no such key.

* `Resolver.IsFirst` — what the first of the keys gives; `Resolver.firstText?_eq_some_iff`,
  `Resolver.firstNumber?_eq_some_iff`, `Resolver.firstPresent?_eq_some_iff` — the readers give just this.
* `Resolver.ItemsAmong` — the items of the first array, or none.
* `Resolver.AgreeUpTo` — props that give the same up to the first key that gives anything.
-/

namespace ScreenLayout.Resolver

variable {α : Type} {r : Resolver} {read : Option Json → Option α} {keys : List String} {p q : Json}

/-! ## The first that gives something -/

/-- **What the first of several keys gives** to a reader, where the keys before give it nothing. -/
def IsFirst (r : Resolver) (read : Option Json → Option α) (props : Json) (keys : List String)
    (a : α) : Prop :=
  ∃ front key back, keys = front ++ key :: back ∧ read (r.field? props key) = some a
    ∧ ∀ other ∈ front, read (r.field? props other) = none

theorem firstText?_eq_some_iff {text : String} :
    r.firstText? p keys = some text ↔ r.IsFirst r.text? p keys text :=
  List.findSome?_eq_some_iff

theorem firstNumber?_eq_some_iff {x : FiniteDouble} :
    r.firstNumber? p keys = some x ↔ r.IsFirst r.number? p keys x :=
  List.findSome?_eq_some_iff

theorem firstPresent?_eq (r : Resolver) (p : Json) (keys : List String) :
    r.firstPresent? p keys = keys.findSome? (r.field? p ·) := by
  simp only [firstPresent?, field?, Json.firstField?]
  cases r.unwrap p with
  | none =>
    have hnone : (keys.findSome? fun _ => (none : Option Json)) = none :=
      List.findSome?_eq_none_iff.2 fun _ _ => rfl
    exact hnone.symm
  | some v => rfl

/-- Presence is the reader that gives the field itself. -/
theorem firstPresent?_eq_some_iff {v : Json} :
    r.firstPresent? p keys = some v ↔ r.IsFirst id p keys v := by
  rw [firstPresent?_eq]
  exact List.findSome?_eq_some_iff

/-- **The items among several fields**: those of the first array, and none without one. -/
inductive ItemsAmong (r : Resolver) (props : Json) (keys : List String) : List Json → Prop
  | array {items : List Json} (h : r.IsFirst r.items? props keys items) :
    ItemsAmong r props keys items
  | none (h : ∀ key ∈ keys, r.items? (r.field? props key) = none) : ItemsAmong r props keys []

theorem itemsAmong_firstItems (r : Resolver) (p : Json) (keys : List String) :
    r.ItemsAmong p keys (r.firstItems p keys) := by
  rw [firstItems]
  cases hitems : keys.findSome? fun key => r.items? (r.field? p key) with
  | none => exact .none (List.findSome?_eq_none_iff.1 hitems)
  | some items => exact .array (List.findSome?_eq_some_iff.1 hitems)

/-! ## Props alike up to the first -/

/-- **Props alike up to the first** key that gives something: each key gives the same in both, until
one gives anything. -/
def AgreeUpTo (r : Resolver) (read : Option Json → Option α) : List String → Json → Json → Prop
  | [], _, _ => True
  | key :: keys, p, q => read (r.field? p key) = read (r.field? q key)
    ∧ (read (r.field? p key) = none → AgreeUpTo r read keys p q)

/-- **What comes after the first is not looked at.** -/
theorem AgreeUpTo.findSome?_eq (h : r.AgreeUpTo read keys p q) :
    (keys.findSome? fun key => read (r.field? p key))
      = keys.findSome? fun key => read (r.field? q key) := by
  induction keys with
  | nil => rfl
  | cons key keys ih =>
    obtain ⟨hkey, hrest⟩ := h
    rw [List.findSome?_cons, List.findSome?_cons, ← hkey]
    cases hread : read (r.field? p key) with
    | none => exact ih (hrest hread)
    | some a => rfl

end ScreenLayout.Resolver
