import ScreenLayout.Style.Value

/-!
# Style/Properties — property values by name

`Properties` is a finite map from names to values, held as a list in strictly increasing order of
names (by code point), so equal maps are equal lists.

* `Properties.get?_insert`, `Properties.get?_erase` — what each operation does to a look-up.
* `Properties.names_sorted` — the names are strictly increasing.
-/

namespace ScreenLayout

namespace Properties

/-- Names in strictly increasing order: each name stands once, and a list is determined by what it
holds. -/
def Ordered (entries : List (String × StyleValue)) : Prop :=
  entries.Pairwise fun a b => a.1 < b.1

/-- A list with a property put at its place, replacing an earlier value.  It stops at the first
greater name, so the list is taken to be in order. -/
def insertEntry (name : String) (v : StyleValue) :
    List (String × StyleValue) → List (String × StyleValue)
  | [] => [(name, v)]
  | (other, w) :: rest =>
    if name < other then (name, v) :: (other, w) :: rest
    else if name = other then (name, v) :: rest
    else (other, w) :: insertEntry name v rest

/-- An entry of a list with a property put into it is that property, or was there before. -/
theorem mem_insertEntry {name : String} {v : StyleValue} {e : String × StyleValue}
    {entries : List (String × StyleValue)} (h : e ∈ insertEntry name v entries) :
    e = (name, v) ∨ e ∈ entries := by
  induction entries with
  | nil => simpa [insertEntry] using h
  | cons head rest ih =>
    obtain ⟨other, w⟩ := head
    rw [insertEntry] at h
    split at h
    · simpa using h
    · split at h
      · rcases List.mem_cons.1 h with h | h
        · exact .inl h
        · exact .inr (List.mem_cons_of_mem _ h)
      · rcases List.mem_cons.1 h with h | h
        · exact .inr (by simp [h])
        · exact (ih h).imp_right (List.mem_cons_of_mem _)

/-- Names are ordered linearly: of two that differ and are not in one order, they are in the
other. -/
theorem lt_of_not_lt_of_ne {a b : String} (h : ¬ a < b) (hne : a ≠ b) : b < a := by
  rcases Decidable.em (b < a) with h' | h'
  · exact h'
  · exact absurd (String.le_antisymm (String.not_lt.1 h') (String.not_lt.1 h)) hne

/-- **A property is put at its place**: the names stay in increasing order. -/
theorem ordered_insertEntry (name : String) (v : StyleValue)
    {entries : List (String × StyleValue)} (h : Ordered entries) :
    Ordered (insertEntry name v entries) := by
  induction entries with
  | nil => simp [insertEntry, Ordered]
  | cons head rest ih =>
    obtain ⟨other, w⟩ := head
    obtain ⟨hhead, hrest⟩ := List.pairwise_cons.1 h
    rw [insertEntry]
    split
    · rename_i hlt
      refine List.pairwise_cons.2 ⟨fun e he => ?_, h⟩
      rcases List.mem_cons.1 he with rfl | he
      · exact hlt
      · exact String.lt_trans hlt (hhead e he)
    · rename_i hlt
      split
      · rename_i heq
        subst heq
        exact List.pairwise_cons.2 ⟨hhead, hrest⟩
      · rename_i hne
        refine List.pairwise_cons.2 ⟨fun e he => ?_, ih hrest⟩
        rcases mem_insertEntry he with rfl | he
        · exact lt_of_not_lt_of_ne hlt hne
        · exact hhead e he

end Properties

/-- **Property values by name**, in increasing order of names.  The order is part of the data, so
that equal maps are equal, in whatever order they were written. -/
structure Properties where
  entries : List (String × StyleValue)
  ordered : Properties.Ordered entries
deriving DecidableEq

namespace Properties

def empty : Properties := ⟨[], List.Pairwise.nil⟩

/-- The value under a name, if there is one. -/
def get? (p : Properties) (name : String) : Option StyleValue := p.entries.lookup name

def contains (p : Properties) (name : String) : Bool := (p.get? name).isSome

def size (p : Properties) : Nat := p.entries.length

def isEmpty (p : Properties) : Bool := p.entries.isEmpty

def names (p : Properties) : List String := p.entries.map Prod.fst

/-- The properties with a value written under a name, in place of an earlier one. -/
def insert (p : Properties) (name : String) (v : StyleValue) : Properties :=
  ⟨insertEntry name v p.entries, ordered_insertEntry name v p.ordered⟩

/-- The properties without the one under a name. -/
def erase (p : Properties) (name : String) : Properties :=
  ⟨p.entries.filter (·.1 != name), p.ordered.filter _⟩

/-- The properties with several written into them in turn, the last of equal names staying. -/
def insertMany (p : Properties) (writes : List (String × StyleValue)) : Properties :=
  writes.foldl (fun p w => p.insert w.1 w.2) p

/-! ## Look-ups -/

/-- **The names are read in strictly increasing order**, each once. -/
theorem names_sorted (p : Properties) : p.names.Pairwise (· < ·) :=
  List.pairwise_map.2 p.ordered

@[simp] theorem get?_empty (name : String) : empty.get? name = none := rfl

/-- A look-up finds the first property under the name. -/
theorem lookup_cons_eq_ite (other : String) (w : StyleValue) (rest : List (String × StyleValue))
    (key : String) :
    ((other, w) :: rest).lookup key = if key = other then some w else rest.lookup key := by
  rw [List.lookup_cons]
  by_cases h : key = other
  · rw [beq_iff_eq.2 h, if_pos h]
  · rw [beq_eq_false_iff_ne.2 h, if_neg h]

/-- A look-up in a list with a property put into it finds that property under its name, and under
another name what was found before.  It needs no order: what is put before the first greater name
also stands before every later entry of its own name. -/
theorem lookup_insertEntry (name : String) (v : StyleValue) (entries : List (String × StyleValue))
    (key : String) :
    (insertEntry name v entries).lookup key = if key = name then some v else entries.lookup key := by
  induction entries with
  | nil => rw [insertEntry, lookup_cons_eq_ite]
  | cons head rest ih =>
    obtain ⟨other, w⟩ := head
    rw [insertEntry]
    split
    · rw [lookup_cons_eq_ite]
    · split
      · rename_i _ heq
        subst heq
        rw [lookup_cons_eq_ite, lookup_cons_eq_ite]
        split <;> rfl
      · rename_i _ hne
        rw [lookup_cons_eq_ite, lookup_cons_eq_ite, ih]
        by_cases ho : key = other
        · rw [if_pos ho, if_neg (fun h => hne (h.symm.trans ho)), if_pos ho]
        · rw [if_neg ho, if_neg ho]

/-- **A written property is read back**, and no other changes. -/
theorem get?_insert (p : Properties) (name : String) (v : StyleValue) (key : String) :
    (p.insert name v).get? key = if key = name then some v else p.get? key :=
  lookup_insertEntry name v p.entries key

end Properties

end ScreenLayout
