import ScreenLayout.Document.Basic
import ScreenLayout.Proofs.Value.Wrapper

/-!
# Proofs/Document/Wrapping — documents and sections inside a wrapper

A document is read through its own keys first, and so is a section; a value inside a wrapper is
peeled down to the innermost one, its keys unseen.  So a wrapper around a value that holds no wrapper
key itself changes nothing, and around one that does it hides the keys beside that one:

    {value: {sections: S, properties: M}}   reads as   {value: {value: M}}

* `Document.entries?_mono` — a greater bound leads to the same entries.
* `Document.parse_wrap`, `Section.ofJson_wrap` — a wrapper changes nothing around plain keys.
* `Document.parse_wrap_of_wrapped?`, `Section.ofJson_wrap_of_wrapped?` — what it reads otherwise.
* `Document.wrapping_transparent_iff` — exactly when a wrapper changes nothing.
-/

namespace ScreenLayout

/-! ## Sections -/

namespace Section

variable {key : String} {n : Nat} {s inner : Json}

theorem isObject_of_namesComponent (hs : namesComponent s) : ∃ fields, s = .object fields := by
  cases s with
  | object fields => exact ⟨fields, rfl⟩
  | _ => cases hs

theorem not_namesComponent_wrap (hkey : key ∈ valueKeys) (v : Json) :
    namesComponent (.wrap key v) = false := by
  have hother : ∀ key ∈ valueKeys, key ∉ componentKeys := by decide
  rw [namesComponent, Json.firstField?_wrap (hother key hkey)]
  rfl

theorem ofJson_congr {r : Resolver} {v w : Json} (h : sourceObject r v = sourceObject r w) :
    ofJson r v = ofJson r w := by
  rw [ofJson, ofJson, h]

/-- The object of a section in a wrapper is the one innermost in it. -/
theorem sourceObject_wrap (hkey : key ∈ valueKeys) (v : Json) :
    sourceObject ⟨n + 1⟩ (.wrap key v) = match (Resolver.mk n).unwrap v with
      | some (.object fields) => .ok (.object fields)
      | some other => .error (.notAnObject other)
      | none => .error (.notAnObject .null) := by
  rw [sourceObject, not_namesComponent_wrap hkey, Resolver.unwrap_wrap hkey]
  rfl

/-- **A wrapper changes nothing around a section with no wrapper key.** -/
theorem ofJson_wrap (hkey : key ∈ valueKeys) (hs : namesComponent s) (hplain : s.wrapped? = none) :
    ofJson ⟨n + 1⟩ (.wrap key s) = ofJson ⟨n + 1⟩ s := by
  obtain ⟨fields, rfl⟩ := isObject_of_namesComponent hs
  refine ofJson_congr ?_
  rw [sourceObject_wrap hkey, Resolver.unwrap_of_wrapped?_eq_none _ hplain nofun,
    sourceObject, if_pos hs]

/-- **A wrapper hides the keys of a section** beside its first wrapper key. -/
theorem ofJson_wrap_of_wrapped? (hkey : key ∈ valueKeys) (hs : s.wrapped? = some inner) :
    ofJson ⟨n + 1⟩ (.wrap key s) = ofJson ⟨n + 1⟩ (.wrap key (.wrap key inner)) := by
  refine ofJson_congr ?_
  rw [sourceObject_wrap hkey, sourceObject_wrap hkey,
    Resolver.unwrap_eq_of_wrapped? _ hs (Json.wrapped?_wrap hkey inner)]

/-- **Exactly when a wrapper changes nothing** around a section. -/
theorem ofJson_wrap_iff (hkey : key ∈ valueKeys) (hs : namesComponent s) :
    ofJson ⟨n + 1⟩ (.wrap key s) = ofJson ⟨n + 1⟩ s ↔ ∀ inner, s.wrapped? = some inner →
      ofJson ⟨n + 1⟩ (.wrap key (.wrap key inner)) = ofJson ⟨n + 1⟩ s := by
  refine ⟨fun h inner hinner => ?_, fun h => ?_⟩
  · rw [← ofJson_wrap_of_wrapped? hkey hinner, h]
  · cases hw : s.wrapped? with
    | none => exact ofJson_wrap hkey hs hw
    | some inner => rw [ofJson_wrap_of_wrapped? hkey hw, h inner hw]

end Section

namespace Document

/-! ## Entries within a bound -/

variable {key : String} {n : Nat} {doc inner : Json}

theorem entriesWithin?_array (r : Resolver) (steps : Nat) (items : List Json) :
    entriesWithin? r steps (.array items) = some items := by
  cases steps <;> rfl

/-- A step is taken from a document that is no array. -/
theorem entriesWithin?_succ (r : Resolver) (steps : Nat) (hdoc : ∀ items, doc ≠ .array items) :
    entriesWithin? r (steps + 1) doc = (step? r doc).bind (entriesWithin? r steps) := by
  cases doc with
  | array items => exact absurd rfl (hdoc items)
  | _ => rfl

theorem entriesWithin?_zero_eq_some {r : Resolver} {entries : List Json}
    (h : entriesWithin? r 0 doc = some entries) : doc = .array entries := by
  cases doc with
  | array items => exact congrArg Json.array (Option.some.inj h)
  | _ => cases h

/-- **A greater bound takes the same step.** -/
theorem step?_mono {m : Nat} (hnm : n ≤ m) {next : Json} (h : step? ⟨n⟩ doc = some next) :
    step? ⟨m⟩ doc = some next := by
  unfold step? at h ⊢
  cases hkeys : doc.firstField? sectionKeys with
  | some v => rw [hkeys] at h; exact h
  | none =>
    rw [hkeys] at h
    cases hw : doc.wrapped? with
    | none => rw [hw] at h; cases h
    | some v => rw [hw] at h; exact Resolver.unwrap_mono hnm h

/-- **More steps and a greater bound lead to the same entries.** -/
theorem entriesWithin?_mono {m k l : Nat} (hnm : n ≤ m) (hkl : k ≤ l) {entries : List Json}
    (h : entriesWithin? ⟨n⟩ k doc = some entries) : entriesWithin? ⟨m⟩ l doc = some entries := by
  induction k generalizing l doc with
  | zero =>
    rw [entriesWithin?_zero_eq_some h]
    exact entriesWithin?_array ⟨m⟩ l entries
  | succ k ih =>
    by_cases harray : ∃ items, doc = .array items
    · obtain ⟨items, rfl⟩ := harray
      rw [entriesWithin?_array] at h ⊢
      exact h
    · have hdoc : ∀ items, doc ≠ .array items := fun items heq => harray ⟨items, heq⟩
      obtain ⟨l, rfl⟩ := Nat.exists_eq_add_of_le' (Nat.le_trans k.succ_pos hkl)
      rw [entriesWithin?_succ _ _ hdoc, Option.bind_eq_some_iff] at h
      obtain ⟨next, hstep, hnext⟩ := h
      rw [entriesWithin?_succ _ _ hdoc, step?_mono hnm hstep]
      exact ih (Nat.le_of_succ_le_succ hkl) hnext

/-- **A greater bound leads to the same entries.** -/
theorem entries?_mono {m : Nat} (hnm : n ≤ m) {entries : List Json}
    (h : entries? ⟨n⟩ doc = some entries) : entries? ⟨m⟩ doc = some entries :=
  entriesWithin?_mono hnm hnm h

/-! ## Documents in a wrapper -/

/-- Whether a document leads on through a key for its sections. -/
def namesSections (doc : Json) : Bool := (doc.firstField? sectionKeys).isSome

theorem firstField?_sectionKeys_wrap (hkey : key ∈ valueKeys) (v : Json) :
    (Json.wrap key v).firstField? sectionKeys = none := by
  have hother : ∀ key ∈ valueKeys, key ∉ sectionKeys := by decide
  exact Json.firstField?_wrap (hother key hkey) v

/-- **The step out of a wrapper** goes to the innermost value in it. -/
theorem step?_wrap (hkey : key ∈ valueKeys) (v : Json) :
    step? ⟨n + 1⟩ (.wrap key v) = (Resolver.mk n).unwrap v := by
  rw [step?, firstField?_sectionKeys_wrap hkey, Json.wrapped?_wrap hkey]
  exact Resolver.unwrap_wrap hkey n v

theorem entries?_wrap (hkey : key ∈ valueKeys) (v : Json) :
    entries? ⟨n + 1⟩ (.wrap key v)
      = ((Resolver.mk n).unwrap v).bind (entriesWithin? ⟨n + 1⟩ n) := by
  have hdoc : ∀ items, Json.wrap key v ≠ .array items := by
    rintro items h
    cases h
  rw [entries?, entriesWithin?_succ _ _ hdoc, step?_wrap hkey]

theorem parse_congr {r : Resolver} {v w : Json} (h : entries? r v = entries? r w) :
    parse r v = parse r w := by
  rw [parse, parse, h]

/-- What leads to entries is not `null`. -/
theorem ne_null_of_entries? {r : Resolver} {entries : List Json}
    (h : entries? r doc = some entries) : doc ≠ .null := by
  rintro rfl
  unfold entries? at h
  cases hb : r.bound <;> rw [hb] at h <;> cases h

/-- **A wrapper takes one step**, around a document whose keys do not lead both ways. -/
theorem entries?_wrap_of_found (hkey : key ∈ valueKeys) {entries : List Json}
    (hfound : entries? ⟨n⟩ doc = some entries)
    (hplain : namesSections doc = false ∨ doc.wrapped? = none) :
    entries? ⟨n + 1⟩ (.wrap key doc) = some entries := by
  rw [entries?_wrap hkey]
  cases hw : doc.wrapped? with
  | none =>
    rw [Resolver.unwrap_of_wrapped?_eq_none _ hw (ne_null_of_entries? hfound)]
    exact entriesWithin?_mono n.le_succ (Nat.le_refl n) hfound
  | some inner =>
    -- the document itself is only a wrapper: its own first step already went to the innermost value
    have hkeys : doc.firstField? sectionKeys = none := by
      rcases hplain with hno | hno
      · exact Option.isSome_eq_false_iff.1 hno |> Option.isNone_iff_eq_none.1
      · rw [hw] at hno; cases hno
    have hdoc : ∀ items, doc ≠ .array items := by
      rintro items rfl
      cases hw
    have hstep : step? ⟨n⟩ doc = (Resolver.mk n).unwrap doc := by rw [step?, hkeys, hw]
    unfold entries? at hfound
    cases n with
    | zero => exact absurd (entriesWithin?_zero_eq_some hfound) (hdoc entries)
    | succ n =>
      rw [entriesWithin?_succ _ _ hdoc, hstep, Option.bind_eq_some_iff] at hfound
      obtain ⟨v, hv, hrest⟩ := hfound
      rw [hv]
      exact entriesWithin?_mono (Nat.le_succ _) n.le_succ hrest

/-- **A wrapper changes nothing around a document** whose keys do not lead both ways. -/
theorem parse_wrap (hkey : key ∈ valueKeys) {entries : List Json}
    (hfound : entries? ⟨n⟩ doc = some entries)
    (hplain : namesSections doc = false ∨ doc.wrapped? = none) :
    parse ⟨n + 1⟩ (.wrap key doc) = parse ⟨n + 1⟩ doc :=
  parse_congr ((entries?_wrap_of_found hkey hfound hplain).trans
    (entries?_mono n.le_succ hfound).symm)

/-- **A wrapper hides the keys of a document** beside its first wrapper key. -/
theorem parse_wrap_of_wrapped? (hkey : key ∈ valueKeys) (hdoc : doc.wrapped? = some inner) :
    parse ⟨n + 1⟩ (.wrap key doc) = parse ⟨n + 1⟩ (.wrap key (.wrap key inner)) := by
  refine parse_congr ?_
  rw [entries?_wrap hkey, entries?_wrap hkey,
    Resolver.unwrap_eq_of_wrapped? _ hdoc (Json.wrapped?_wrap hkey inner)]

/-- **Exactly when a wrapper changes nothing** around a document. -/
theorem parse_wrap_iff (hkey : key ∈ valueKeys) {entries : List Json}
    (hfound : entries? ⟨n⟩ doc = some entries) :
    parse ⟨n + 1⟩ (.wrap key doc) = parse ⟨n + 1⟩ doc ↔
      (namesSections doc → ∀ inner, doc.wrapped? = some inner →
        parse ⟨n + 1⟩ (.wrap key (.wrap key inner)) = parse ⟨n + 1⟩ doc) := by
  refine ⟨fun h _ inner hinner => ?_, fun h => ?_⟩
  · rw [← parse_wrap_of_wrapped? hkey hinner, h]
  · cases hs : namesSections doc with
    | false => exact parse_wrap hkey hfound (.inl hs)
    | true =>
      cases hw : doc.wrapped? with
      | none => exact parse_wrap hkey hfound (.inr hw)
      | some inner => rw [parse_wrap_of_wrapped? hkey hw, h hs inner hw]

/-! ## One entry replaced -/

theorem parse_array (r : Resolver) (items : List Json) :
    parse r (.array items)
      = ⟨items.filterMap (section? r), items.zipIdx.filterMap (entryWarning? r)⟩ := by
  rw [parse, entries?, entriesWithin?_array]

/-- An entry is a section or is warned about, so both together tell what it is read as. -/
theorem ofJson_eq_of_parts {r : Resolver} {v w : Json} {i : Nat}
    (hsection : section? r v = section? r w)
    (hwarning : entryWarning? r (v, i) = entryWarning? r (w, i)) :
    Section.ofJson r v = Section.ofJson r w := by
  unfold section? at hsection
  unfold entryWarning? at hwarning
  cases hv : Section.ofJson r v <;> cases hw : Section.ofJson r w <;>
    rw [hv, hw] at hsection hwarning
  · cases hwarning; rfl
  · cases hsection
  · cases hsection
  · cases hsection; rfl

/-- **What is kept of one more entry** stands between what is kept of the others. -/
theorem filterMap_around {α β : Type} (f : α → Option β) (before after : List α) (a : α) :
    (before ++ a :: after).filterMap f
      = before.filterMap f ++ ((f a).toList ++ after.filterMap f) := by
  rw [List.filterMap_append, List.filterMap_cons]
  cases f a <;> rfl

theorem eq_of_toList_eq {α : Type} {o o' : Option α} (h : o.toList = o'.toList) : o = o' := by
  cases o <;> cases o' <;> cases h <;> rfl

/-- **An entry replaced** leaves a document as it was exactly when it is read as the same. -/
theorem parse_replace_iff (r : Resolver) (before after : List Json) (v w : Json) :
    parse r (.array (before ++ v :: after)) = parse r (.array (before ++ w :: after)) ↔
      Section.ofJson r v = Section.ofJson r w := by
  have hparse : ∀ u, parse r (.array (before ++ u :: after)) =
      ⟨before.filterMap (section? r) ++ ((section? r u).toList ++ after.filterMap (section? r)),
        before.zipIdx.filterMap (entryWarning? r) ++
          ((entryWarning? r (u, before.length)).toList ++
            (after.zipIdx (before.length + 1)).filterMap (entryWarning? r))⟩ := by
    intro u
    rw [parse_array, filterMap_around, List.zipIdx_append, Nat.zero_add, List.zipIdx_cons,
      filterMap_around]
  rw [hparse, hparse, Parsed.mk.injEq, List.append_cancel_left_eq, List.append_cancel_right_eq,
    List.append_cancel_left_eq, List.append_cancel_right_eq]
  refine ⟨fun ⟨hsection, hwarning⟩ => ?_, fun h => ?_⟩
  · exact ofJson_eq_of_parts (eq_of_toList_eq hsection) (eq_of_toList_eq hwarning)
  · unfold section? entryWarning?
    rw [h]
    exact ⟨rfl, rfl⟩

/-! ## Exactly when a wrapper changes nothing -/

/-- **Exactly when wrappers are transparent.**  Within a bound that is one more than the steps to
its sections need, a document in a wrapper is parsed as without it unless it has a key for its
sections beside a wrapper key: then it is parsed as what that wrapper key holds.  A section in a
wrapper, also in its place among other entries, is read as without it unless it has a wrapper key,
such as `properties` for its props. -/
theorem wrapping_transparent_iff {key : String} (hkey : key ∈ valueKeys) (n : Nat) :
    (∀ doc entries, entries? ⟨n⟩ doc = some entries →
      (parse ⟨n + 1⟩ (.wrap key doc) = parse ⟨n + 1⟩ doc ↔
        (namesSections doc → ∀ inner, doc.wrapped? = some inner →
          parse ⟨n + 1⟩ (.wrap key (.wrap key inner)) = parse ⟨n + 1⟩ doc))) ∧
    (∀ s, Section.namesComponent s →
      (Section.ofJson ⟨n + 1⟩ (.wrap key s) = Section.ofJson ⟨n + 1⟩ s ↔
        ∀ inner, s.wrapped? = some inner →
          Section.ofJson ⟨n + 1⟩ (.wrap key (.wrap key inner)) = Section.ofJson ⟨n + 1⟩ s) ∧
      ∀ before after,
        (parse ⟨n + 1⟩ (.array (before ++ .wrap key s :: after))
            = parse ⟨n + 1⟩ (.array (before ++ s :: after)) ↔
          Section.ofJson ⟨n + 1⟩ (.wrap key s) = Section.ofJson ⟨n + 1⟩ s)) :=
  ⟨fun _ _ hfound => parse_wrap_iff hkey hfound, fun s hs =>
    ⟨Section.ofJson_wrap_iff hkey hs, fun before after =>
      parse_replace_iff ⟨n + 1⟩ before after (.wrap key s) s⟩⟩

/-- A text with its props under `properties`. -/
def textUnderProperties : Json :=
  .object [("component", .string "text"), ("properties", .object [("text", .string "Hi")])]

/-- A document with metadata under `properties` beside its sections. -/
def themedDocument : Json :=
  .object [("sections", .array [.object [("component", .string "a")]]),
    ("properties", .object [("theme", .string "dark")])]

/-- **A wrapper takes away** the component of a section with `properties`, and the sections of a
document with metadata there. -/
theorem wrapping_hides_keys :
    Section.ofJson ⟨32⟩ textUnderProperties
      = .ok ⟨.string "text", .object [("text", .string "Hi")], none⟩ ∧
    Section.ofJson ⟨32⟩ (.wrap "value" textUnderProperties) = .error .missingComponent ∧
    entries? ⟨31⟩ themedDocument = some [.object [("component", .string "a")]] ∧
    parse ⟨32⟩ themedDocument
      = ⟨[⟨.string "a", .object [("component", .string "a")], none⟩], []⟩ ∧
    parse ⟨32⟩ (.wrap "value" themedDocument) = ⟨[], [.noSectionList]⟩ :=
  ⟨rfl, rfl, rfl, rfl, rfl⟩

/-- A spacer and the document of it alone are the same inside a wrapper. -/
theorem wrapping_transparent_spacer :
    entries? ⟨1⟩ (.object [("layout", .array [.object [("type", .string "spacer")]])])
      = some [.object [("type", .string "spacer")]] ∧
    parse ⟨2⟩ (.wrap "const" (.object [("layout", .array [.object [("type", .string "spacer")]])]))
      = parse ⟨2⟩ (.object [("layout", .array [.object [("type", .string "spacer")]])]) ∧
    Section.namesComponent (.object [("type", .string "spacer")]) ∧
    Section.ofJson ⟨2⟩ (.wrap "const" (.object [("type", .string "spacer")]))
      = Section.ofJson ⟨2⟩ (.object [("type", .string "spacer")]) := by
  have hkey : "const" ∈ valueKeys := by decide
  obtain ⟨hdocument, hsection⟩ := wrapping_transparent_iff hkey 1
  refine ⟨rfl, (hdocument _ _ rfl).2 ?_, rfl, (hsection _ rfl).1.2 ?_⟩
  · rintro - inner hinner
    cases hinner
  · rintro inner hinner
    cases hinner

end Document

end ScreenLayout
