import ScreenLayout.Proofs.Style.Entrywise
import ScreenLayout.Proofs.Style.ShorthandWrites

/-!
# Proofs/Style/RuleWrites — what each rule can write, and where it ends up

A rule writes under few names, and each of them has a rule of its own: what `border` writes is then a
length, a colour and a keyword.  So the form of a compiled value is known from its name.

* `Rule.write_of_mem` — the form of every write of a rule.
* `Rule.ofName_of_mem_targets` — every name a rule writes under has a rule that writes under it.
* `exists_write_of_get?_compile` — a compiled value is a write of the rule of some entry.
-/

namespace ScreenLayout

namespace Rule

/-! ## Writes -/

/-- **What a rule writes** for a property with a value inside its wrappers. -/
inductive Write (c : Config) (property : String) (v : Json) :
    Rule → String → StyleValue → Prop
  | box {n : String} {w : StyleValue} (h : Shorthand.BoxWrite property n w) :
    Write c property v box n w
  | lengthAs (name : String) : Write c property v (lengthAs name) name (.ofLength v)
  | border {side n : String} {w : StyleValue} (h : Shorthand.BorderWrite side n w) :
    Write c property v (border side) n w
  | borderRadius {x : Double} (h : Shorthand.borderRadius c v = .ok x) :
    Write c property v borderRadius "borderRadius" (.number x)
  | backgroundText (s : String) : Write c property v background "backgroundColor" (.text s)
  | backgroundData (h : ∀ s, v ≠ .string s) :
    Write c property v background "backgroundColor" (.json v)
  | opacity (x : FiniteDouble) : Write c property v opacity "opacity" (.number x)
  | opacityPercent (x : FiniteDouble) :
    Write c property v opacityPercent "opacity" (.number (ofPercent x))
  | boxShadow {n : String} {w : StyleValue} (h : Shorthand.ShadowWrite c n w) :
    Write c property v boxShadow n w
  | font {n : String} {w : StyleValue} (h : Shorthand.FontWrite n w) : Write c property v font n w
  | fontFamily {cs family : List Char} (h : Shorthand.firstFamily? cs = some family) :
    Write c property v fontFamily "fontFamily" (.ofText family)
  | fontWeight {weight : List Char} (h : fontWeight? v = some weight) :
    Write c property v fontWeight "fontWeight" (.ofText weight)
  | fontVariant (h : fontVariants c.resolver v ≠ []) :
    Write c property v fontVariant "fontVariant" (.list (fontVariants c.resolver v))
  | fontStyle : Write c property v fontStyle "fontStyle" (.text (fontStyleWord v))
  | textDecoration :
    Write c property v textDecoration "textDecorationLine" (.text (decorationLine v))
  | letterSpacing {x : Double} (h : letterSpacing? c v = some x) :
    Write c property v letterSpacing "letterSpacing" (.number x)
  | objectFit : Write c property v objectFit "resizeMode" (.text (resizeMode v))
  | keyword : Write c property v keyword property (keywordValue v)
  | length : Write c property v length property (.ofLength v)
  | unitless : Write c property v unitless property (ScreenLayout.unitless v)
  | other : Write c property v other property (otherValue v)

variable {c : Config} {property : String} {v : Json} {p : StylePatch}

/-- What is written for a value that can be read. -/
theorem exists_of_orUnreadable {α : Type} {f : α → StylePatch} {read : Option α}
    (h : orUnreadable property v f read = .ok p) : ∃ a, read = some a ∧ p = f a := by
  cases read with
  | none => cases h
  | some a => cases h; exact ⟨a, rfl, rfl⟩

theorem write_of_mem_background (h : backgroundPatch v = .ok p) :
    ∀ e ∈ p.writes, Write c property v background e.1 e.2 := by
  unfold backgroundPatch at h
  split at h
  · dsimp only at h
    split at h
    · split at h
      · cases h
        intro e he
        obtain ⟨color, -, rfl⟩ := List.mem_map.1 he
        exact .backgroundText color
      · cases h
        exact forall_mem_one (.backgroundText _)
      · cases h
    · cases h
      exact forall_mem_one (.backgroundText _)
  · rename_i hstring
    cases h
    exact forall_mem_one (.backgroundData hstring)

/-- **Every write of a rule** has one of the forms of its rule. -/
theorem write_of_mem {r : Rule} (h : r.patch c property v = .ok p) :
    ∀ e ∈ p.writes, Write c property v r e.1 e.2 := by
  cases r with
  | unsupported => cases h
  | box => exact fun e he => .box (Shorthand.boxWrite_of_mem h e he)
  | border side => exact fun e he => .border (Shorthand.borderWrite_of_mem h e he)
  | boxShadow => exact fun e he => .boxShadow (Shorthand.shadowWrite_of_mem h e he)
  | font => exact fun e he => .font (Shorthand.fontWrite_of_mem h e he)
  | background => exact write_of_mem_background (eq_ok_of_mapError h)
  | borderRadius =>
    cases hx : Shorthand.borderRadius c v with
    | error error => rw [patch, hx] at h; cases h
    | ok x =>
      rw [patch, hx] at h
      cases h
      exact forall_mem_one (.borderRadius hx)
  | opacity =>
    obtain ⟨x, -, rfl⟩ := exists_of_orUnreadable h
    exact forall_mem_one (.opacity x)
  | opacityPercent =>
    obtain ⟨x, -, rfl⟩ := exists_of_orUnreadable h
    exact forall_mem_one (.opacityPercent x)
  | fontFamily =>
    obtain ⟨family, hread, rfl⟩ := exists_of_orUnreadable h
    obtain ⟨s, -, hfamily⟩ := Option.bind_eq_some_iff.1 hread
    exact forall_mem_one (.fontFamily hfamily)
  | fontWeight =>
    obtain ⟨weight, hweight, rfl⟩ := exists_of_orUnreadable h
    exact forall_mem_one (.fontWeight hweight)
  | letterSpacing =>
    obtain ⟨x, hx, rfl⟩ := exists_of_orUnreadable h
    exact forall_mem_one (.letterSpacing hx)
  | fontVariant =>
    rw [patch] at h
    split at h
    · cases h
    · rename_i hvariants
      cases h
      exact forall_mem_one (.fontVariant hvariants)
  | lengthAs name => cases h; exact forall_mem_one (.lengthAs name)
  | fontStyle => cases h; exact forall_mem_one .fontStyle
  | textDecoration => cases h; exact forall_mem_one .textDecoration
  | objectFit => cases h; exact forall_mem_one .objectFit
  | keyword => cases h; exact forall_mem_one .keyword
  | length => cases h; exact forall_mem_one .length
  | unitless => cases h; exact forall_mem_one .unitless
  | other => cases h; exact forall_mem_one .other

/-! ## Names -/

/-- **The names a rule can write under**, each with the rule it has itself. -/
def targets (property : String) : Rule → List (String × Rule)
  | unsupported => []
  | box => (property, box) :: Shorthand.boxSides.map fun side => (property ++ side, length)
  | lengthAs name => [(name, length)]
  | border side =>
    [(Shorthand.widthName side, length), (Shorthand.colorName side, other),
      ("borderStyle", keyword)]
  | borderRadius => [("borderRadius", borderRadius)]
  | background => [("backgroundColor", background)]
  | opacity | opacityPercent => [("opacity", opacity)]
  | boxShadow =>
    [("shadowOffset", other), ("shadowRadius", length), ("shadowOpacity", other),
      ("shadowColor", other), ("elevation", other)]
  | font =>
    [("fontStyle", fontStyle), ("fontVariant", fontVariant), ("fontWeight", fontWeight),
      ("fontSize", length), ("lineHeight", length), ("fontFamily", fontFamily)]
  | fontFamily => [("fontFamily", fontFamily)]
  | fontWeight => [("fontWeight", fontWeight)]
  | fontVariant => [("fontVariant", fontVariant)]
  | fontStyle => [("fontStyle", fontStyle)]
  | textDecoration => [("textDecorationLine", textDecoration)]
  | letterSpacing => [("letterSpacing", letterSpacing)]
  | objectFit => [("resizeMode", other)]
  | keyword => [(property, keyword)]
  | length => [(property, length)]
  | unitless => [(property, unitless)]
  | other => [(property, other)]

/-- A name that is not in the table has no rule of its own, and the others have the one there. -/
theorem eq_other_or_mem_table (name : String) :
    ofName name = other ∨ (name, ofName name) ∈ table := by
  unfold ofName
  cases hlookup : table.lookup name with
  | none => exact .inl rfl
  | some r =>
    obtain ⟨before, after, htable, -⟩ := List.lookup_eq_some_iff.1 hlookup
    rw [htable]
    exact .inr (List.mem_append_right _ List.mem_cons_self)

theorem ofName_eq_other_of_not_mem {name : String} (h : name ∉ table.map Prod.fst) :
    ofName name = other := by
  rcases eq_other_or_mem_table name with hother | hmem
  · exact hother
  · exact absurd (List.mem_map_of_mem hmem) h

/-- **A name is settled** when its own rule writes under it: `padding` is, and `border` is not. -/
def Settled (name : String) : Prop := (name, ofName name) ∈ (ofName name).targets name

instance (name : String) : Decidable (Settled name) :=
  inferInstanceAs (Decidable ((name, ofName name) ∈ (ofName name).targets name))

theorem ofName_targets_table :
    ∀ e ∈ table, ∀ target ∈ e.2.targets e.1, ofName target.1 = target.2 ∧ Settled target.1 := by
  decide +kernel

/-- **Every name a rule writes under** has the rule of its targets, and that one writes under it. -/
theorem ofName_of_mem_targets {property : String} {target : String × Rule}
    (h : target ∈ (ofName property).targets property) :
    ofName target.1 = target.2 ∧ Settled target.1 := by
  rcases eq_other_or_mem_table property with hother | hmem
  · rw [hother] at h
    obtain rfl := List.mem_singleton.1 h
    refine ⟨hother, ?_⟩
    rw [Settled, hother]
    exact h
  · exact ofName_targets_table _ hmem target h

end Rule

/-! ## Compiled values -/

variable {c : Config}

theorem mem_of_lastWrite? {writes : List (String × StyleValue)} {name : String} {w : StyleValue}
    (h : Properties.lastWrite? writes name = some w) : (name, w) ∈ writes := by
  obtain ⟨before, after, hwrites, -⟩ := List.lookup_eq_some_iff.1 h
  refine List.mem_reverse.1 ?_
  rw [hwrites]
  exact List.mem_append_right _ List.mem_cons_self

/-- **An entry writes what the rule of its name writes** for the value inside its wrappers. -/
theorem exists_write_of_mem_compileEntry {entry : String × Json} {e : String × StyleValue}
    (he : e ∈ (compileEntry c entry).patch.writes) :
    ∃ v, c.resolver.unwrap entry.2 = some v ∧
      (Rule.ofName (canonicalName entry.1)).Write c (canonicalName entry.1) v e.1 e.2 := by
  unfold compileEntry at he
  dsimp only at he
  split at he
  · cases he
  · rename_i v hv
    split at he
    · rename_i p hp
      exact ⟨v, hv, Rule.write_of_mem hp e he⟩
    · cases he

/-- **A compiled value is a write** of the rule of some entry. -/
theorem exists_write_of_get?_compile {entries : List (String × Json)} {name : String}
    {w : StyleValue} (h : (compile c entries).style.get? name = some w) :
    ∃ entry ∈ entries, ∃ v, c.resolver.unwrap entry.2 = some v ∧
      (Rule.ofName (canonicalName entry.1)).Write c (canonicalName entry.1) v name w := by
  rw [get?_compile] at h
  obtain ⟨entry, hentry, hget⟩ := List.exists_of_findSome?_eq_some h
  rw [get?_styleAlone] at hget
  exact ⟨entry, List.mem_reverse.1 hentry, exists_write_of_mem_compileEntry (mem_of_lastWrite? hget)⟩

end ScreenLayout
