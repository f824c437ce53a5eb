import ScreenLayout.Document.Visibility
import ScreenLayout.Proofs.Text.Blank
import ScreenLayout.Proofs.Value.Aliases
import ScreenLayout.Proofs.Value.Path

/-!
# Proofs/Document/Precedence — which part of a visibility block decides

A block that resolves to an object decides by at most three of its fields, the first present of each
list of aliases.  A field is present even if it is `null`, and then the later ones do not count:

    {hideOnMobile: null, mobileHidden: true}                is shown
    {hideOnMobile: true, showOnMobile: true}                is hidden
    {device: "phone", target: "Desktop", mobile: true}      is hidden

A block that resolves to anything else is a flag by itself, and shown if it is none.

* `Visibility.Allows` — the three parts; `Visibility.shows_of_not_object`, `Visibility.shows_iff` — the
  decision for both sorts of blocks.
* `Visibility.AliasesAgree` — blocks that the aliases do not tell apart.
* `Visibility.block_decides` — all of it, and that a set hide flag hides whatever else there is.
-/

namespace ScreenLayout.Visibility

variable {r : Resolver} {block p q : Json}

/-! ## Blocks that are no objects -/

theorem isObject_eq_false_iff {v : Json} : v.isObject = false ↔ ∀ fields, v ≠ .object fields := by
  cases v <;> simp [Json.isObject]

/-- A block that resolves to an object is no flag by itself. -/
theorem flag?_of_object {fields : List (String × Json)} (h : r.unwrap block = some (.object fields)) :
    flag? r block = none := by
  rw [flag?, h]
  rfl

/-- What resolves to no object has no fields. -/
theorem firstPresent?_of_not_object (h : ∀ fields, r.unwrap block ≠ some (.object fields))
    (keys : List String) : r.firstPresent? block keys = none := by
  rw [Resolver.firstPresent?_eq, List.findSome?_eq_none_iff]
  intro key _
  rw [Resolver.field?]
  cases hv : r.unwrap block with
  | none => rfl
  | some v =>
    cases v with
    | object fields => exact absurd hv (h fields)
    | _ => rfl

/-- **A block that resolves to no object** is the flag it resolves to, and set if it is none. -/
theorem shows_of_not_object (h : ∀ fields, r.unwrap block ≠ some (.object fields)) :
    shows r block = ((r.unwrap block).bind Json.toBool?).getD true := by
  have hflag : flag? r block = (r.unwrap block).bind Json.toBool? := by
    rw [flag?]
    cases hv : r.unwrap block with
    | none => rfl
    | some v =>
      have hplain : v.isObject = false := isObject_eq_false_iff.2 fun fields heq => h fields (heq ▸ hv)
      rw [Option.filter_some, hplain]
      rfl
  rw [shows, hflag]
  cases (r.unwrap block).bind Json.toBool? with
  | some flag => rfl
  | none =>
    rw [isHidden, target, isShown, firstPresent?_of_not_object h, firstPresent?_of_not_object h,
      firstPresent?_of_not_object h]
    rfl

/-! ## Blocks that are objects -/

theorem isHidden_iff : isHidden r block
    ↔ ∃ v, r.IsFirst id block hideKeys v ∧ r.bool? (some v) = some true := by
  simp only [← Resolver.firstPresent?_eq_some_iff, isHidden]
  cases r.firstPresent? block hideKeys with
  | none => simp [Resolver.bool?]
  | some v => cases hflag : r.bool? (some v) <;> simp [hflag]

theorem isShown_iff : isShown r block
    ↔ ∀ v, r.IsFirst id block showKeys v → r.bool? (some v) ≠ some false := by
  simp only [← Resolver.firstPresent?_eq_some_iff, isShown]
  cases r.firstPresent? block showKeys with
  | none => simp [Resolver.bool?]
  | some v => cases hflag : r.bool? (some v) <;> simp [hflag]

/-- **A text names another screen** than a mobile one: in lower case it contains one of two words. -/
def NamesElsewhere (text : String) : Prop :=
  ∃ word ∈ ["desktop", "web"], word.toList <:+: Text.lower text.toList

theorem isElsewhere_lower_iff (text : String) :
    isElsewhere (Text.lower text.toList) ↔ NamesElsewhere text := by
  simp [isElsewhere, NamesElsewhere, Text.contains_iff_infix]

theorem isElsewhere_target_iff : isElsewhere (target r block)
    ↔ ∃ v, r.IsFirst id block targetKeys v ∧ ∃ text, r.text? (some v) = some text
        ∧ NamesElsewhere text := by
  have hempty : ¬ NamesElsewhere "" := by
    rw [← isElsewhere_lower_iff]
    decide
  simp only [← Resolver.firstPresent?_eq_some_iff, target, isElsewhere_lower_iff]
  cases r.firstPresent? block targetKeys with
  | none => simpa [Resolver.text?] using hempty
  | some v =>
    cases htext : r.text? (some v) with
    | none => simpa [htext] using hempty
    | some text => simp [htext]

/-- **A block lets its section be shown**: the first hide alias present is not set, the first target
present names no other screen, and the first show alias present is set or no flag at all.  A part
without an alias present asks for nothing. -/
structure Allows (r : Resolver) (block : Json) : Prop where
  not_hidden : ∀ v, r.IsFirst id block hideKeys v → r.bool? (some v) ≠ some true
  not_elsewhere : ∀ v, r.IsFirst id block targetKeys v →
    ∀ text, r.text? (some v) = some text → ¬ NamesElsewhere text
  not_withheld : ∀ v, r.IsFirst id block showKeys v → r.bool? (some v) ≠ some false

/-- **A block that resolves to an object** decides by its three parts. -/
theorem shows_iff {fields : List (String × Json)} (h : r.unwrap block = some (.object fields)) :
    shows r block ↔ Allows r block := by
  have hshows : shows r block
      = (!isHidden r block && !isElsewhere (target r block) && isShown r block) := by
    rw [shows, flag?_of_object h]
  have hhidden : isHidden r block = false
      ↔ ∀ v, r.IsFirst id block hideKeys v → r.bool? (some v) ≠ some true := by
    rw [Bool.eq_false_iff, ne_eq, isHidden_iff]
    simp only [not_exists, not_and]
  have helsewhere : isElsewhere (target r block) = false
      ↔ ∀ v, r.IsFirst id block targetKeys v →
        ∀ text, r.text? (some v) = some text → ¬ NamesElsewhere text := by
    rw [Bool.eq_false_iff, ne_eq, isElsewhere_target_iff]
    simp only [not_exists, not_and]
  rw [hshows, Bool.and_eq_true, Bool.and_eq_true, Bool.not_eq_true', Bool.not_eq_true', hhidden,
    helsewhere, isShown_iff]
  exact ⟨fun ⟨⟨hhide, htarget⟩, hshow⟩ => ⟨hhide, htarget, hshow⟩,
    fun ⟨hhide, htarget, hshow⟩ => ⟨⟨hhide, htarget⟩, hshow⟩⟩

/-! ## What the decision depends on -/

/-- **The aliases** of the three parts, sixteen in all. -/
def aliases : List String := hideKeys ++ targetKeys ++ showKeys

/-- **Blocks that the aliases do not tell apart**: each is present in both or in neither, and what is
under it resolves to the same. -/
def AliasesAgree (r : Resolver) (p q : Json) : Prop :=
  ∀ key ∈ aliases, (r.field? p key).map r.unwrap = (r.field? q key).map r.unwrap

/-- The first of some aliases resolves to the same, if there is one. -/
theorem AliasesAgree.firstPresent?_eq (h : AliasesAgree r p q) (keys : List String)
    (hkeys : ∀ key ∈ keys, key ∈ aliases) :
    (r.firstPresent? p keys).bind r.unwrap = (r.firstPresent? q keys).bind r.unwrap := by
  have hmap : (r.firstPresent? p keys).map r.unwrap = (r.firstPresent? q keys).map r.unwrap := by
    rw [Resolver.firstPresent?_eq, Resolver.firstPresent?_eq, List.map_findSome?, List.map_findSome?]
    exact findSome?_congr fun key hkey => h key (hkeys key hkey)
  have hbind : ∀ o : Option Json, o.bind r.unwrap = (o.map r.unwrap).bind id :=
    fun o => (Option.bind_map (f := r.unwrap) (g := id)).symm
  rw [hbind, hbind, hmap]

/-- **Blocks that resolve to objects and agree on the aliases** are decided alike. -/
theorem AliasesAgree.shows_eq (h : AliasesAgree r p q) {fields fields' : List (String × Json)}
    (hp : r.unwrap p = some (.object fields)) (hq : r.unwrap q = some (.object fields')) :
    shows r p = shows r q := by
  have hhide := h.firstPresent?_eq hideKeys (by decide)
  have htarget := h.firstPresent?_eq targetKeys (by decide)
  have hshow := h.firstPresent?_eq showKeys (by decide)
  rw [shows, shows, flag?_of_object hp, flag?_of_object hq]
  simp only [isHidden, target, isShown, Resolver.bool?, Resolver.text?, hhide, htarget, hshow]

/-! ## The first of the hide aliases -/

/-- **A value put under the first hide alias** of what a block resolves to, inside its wrappers. -/
def putHide (block v : Json) : Json := block.mapCore (·.put "hideOnMobile" v)

/-- **A set flag there hides the section**, whatever else the block says. -/
theorem shows_putHide {fields : List (String × Json)} {v : Json}
    (h : r.unwrap block = some (.object fields)) (hv : r.bool? (some v) = some true) :
    shows r (putHide block v) = false := by
  have hplain : ((Json.object fields).put "hideOnMobile" v).wrapped? = none :=
    (Json.wrapped?_put (by decide) _ v).trans (Resolver.wrapped?_of_unwrap h)
  obtain ⟨fields', hfields'⟩ : ∃ fields', (Json.object fields).put "hideOnMobile" v = .object fields' := by
    dsimp only [Json.put]
    split
    · exact ⟨_, rfl⟩
    · exact ⟨_, rfl⟩
  have hunwrap : r.unwrap (putHide block v) = some (.object fields') := by
    rw [putHide, Resolver.unwrap_mapCore h hplain (hfields' ▸ nofun), hfields']
  have hfield : r.field? (putHide block v) "hideOnMobile" = some v := by
    rw [Resolver.field?, hunwrap, ← hfields']
    exact Json.field?_put_object fields "hideOnMobile" v
  have hfirst : r.IsFirst id (putHide block v) hideKeys v :=
    ⟨[], "hideOnMobile", _, rfl, hfield, List.forall_mem_nil _⟩
  exact Bool.eq_false_iff.2 fun hshows => ((shows_iff hunwrap).1 hshows).not_hidden v hfirst hv

/-! ## All of it -/

/-- **A block decides by its value or by three of its fields.**  A block that resolves to no object is
a flag, set if it is none; one that does is shown when its three parts allow it.  So blocks that the
aliases do not tell apart are decided alike, and a set hide flag hides the section. -/
theorem block_decides (r : Resolver) :
    (∀ block, (∀ fields, r.unwrap block ≠ some (.object fields)) →
        shows r block = ((r.unwrap block).bind Json.toBool?).getD true)
      ∧ (∀ block fields, r.unwrap block = some (.object fields) → (shows r block ↔ Allows r block))
      ∧ (∀ p q fields fields', r.unwrap p = some (.object fields) →
          r.unwrap q = some (.object fields') → AliasesAgree r p q → shows r p = shows r q)
      ∧ ∀ block fields v component props, r.unwrap block = some (.object fields) →
          r.bool? (some v) = some true →
          Section.isVisible r ⟨component, props, some (putHide block v)⟩ = false :=
  ⟨fun _ h => shows_of_not_object h, fun _ _ h => shows_iff h,
    fun _ _ _ _ hp hq h => h.shows_eq hp hq, fun _ _ _ _ _ h hv => shows_putHide h hv⟩

/-- A block in a wrapper.  Its first hide alias is there without a value, so the second does not
count, and its target is a phone. -/
def phoneBlock : Json :=
  .wrap "properties" (.object [("hideOnMobile", .null), ("mobileHidden", .bool true),
    ("target", .wrap "value" (.string "PHONE"))])

/-- The same fields in another order, without the wrapper and beside a key of no meaning. -/
def phoneBlock' : Json :=
  .object [("target", .string "PHONE"), ("note", .string "hidden"), ("mobileHidden", .bool true),
    ("hideOnMobile", .null)]

/-- **A word hides, a phone does not**, until the first hide alias is set. -/
theorem block_decides_phone :
    (∀ fields, Resolver.unwrap {} (.string "No") ≠ some (.object fields))
      ∧ shows {} (.string "No") = false
      ∧ (shows {} phoneBlock ↔ Allows {} phoneBlock) ∧ shows {} phoneBlock = true
      ∧ AliasesAgree {} phoneBlock phoneBlock' ∧ shows {} phoneBlock = shows {} phoneBlock'
      ∧ Resolver.bool? {} (some (.string "yes")) = some true
      ∧ Section.isVisible {} ⟨.string "text", .null, some (putHide phoneBlock (.string "yes"))⟩
        = false := by
  obtain ⟨hword, hobject, hagree, hhide⟩ := block_decides {}
  have hno : ∀ fields, Resolver.unwrap {} (.string "No") ≠ some (.object fields) := nofun
  have hphone : Resolver.unwrap {} phoneBlock = some (.object [("hideOnMobile", .null),
      ("mobileHidden", .bool true), ("target", .wrap "value" (.string "PHONE"))]) := by decide
  have hphone' : Resolver.unwrap {} phoneBlock' = some phoneBlock' := by decide
  have haliases : AliasesAgree {} phoneBlock phoneBlock' := by
    intro key hkey
    revert key
    decide
  exact ⟨hno, hword _ hno, hobject _ _ hphone, by decide, haliases,
    hagree _ _ _ _ hphone hphone' haliases, by decide, hhide _ _ _ _ _ hphone (by decide)⟩

end ScreenLayout.Visibility
