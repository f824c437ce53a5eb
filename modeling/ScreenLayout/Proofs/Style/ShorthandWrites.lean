import ScreenLayout.Style.Shorthand.Box
import ScreenLayout.Style.Shorthand.Font
import ScreenLayout.Style.Shorthand.Radius
import ScreenLayout.Style.Shorthand.Shadow

/-!
# Proofs/Style/ShorthandWrites — what each shorthand can write

A shorthand that is not refused writes under names fixed by the property and the side, and the value
at each name is of one form.  Each relation below has a constructor for every name a shorthand writes.

* `Shorthand.boxWrite_of_mem`, `Shorthand.borderWrite_of_mem`, `Shorthand.fontWrite_of_mem`,
  `Shorthand.shadowWrite_of_mem` — every write of a shorthand is of such a form.
-/

namespace ScreenLayout

/-- A refusal that names the property hides none of what is written. -/
theorem eq_ok_of_mapError {α ε ε' : Type} {f : ε → ε'} {e : Except ε α} {a : α}
    (h : e.mapError f = .ok a) : e = .ok a := by
  cases e with
  | error e => cases h
  | ok b => cases h; rfl

theorem mapError_eq_ok_iff {α ε ε' : Type} {f : ε → ε'} {e : Except ε α} {a : α} :
    e.mapError f = .ok a ↔ e = .ok a :=
  ⟨eq_ok_of_mapError, fun h => h ▸ rfl⟩

/-- What holds of a single write holds of all there are. -/
theorem forall_mem_one {P : String → StyleValue → Prop} {name : String} {w : StyleValue}
    (h : P name w) : ∀ e ∈ (StylePatch.one name w).writes, P e.1 e.2 := by
  intro e he
  obtain rfl := List.mem_singleton.1 he
  exact h

/-- **A length without its unit, or `auto`.** -/
def StyleValue.IsLengthPart (w : StyleValue) : Prop :=
  (∃ x : FiniteDouble, w = .number x) ∨ w = .text "auto"

theorem StyleValue.isLengthPart_of_lengthPart? {word : List Char} {w : StyleValue}
    (h : lengthPart? word = some w) : w.IsLengthPart := by
  unfold lengthPart? at h
  split at h
  · cases h; exact .inr rfl
  · obtain ⟨d, -, rfl⟩ := Option.map_eq_some_iff.1 h
    exact .inl ⟨d.value, rfl⟩

namespace Shorthand

/-! ## Boxes -/

/-- What the names of a box shorthand end in, where they are not the property itself. -/
def boxSides : List String := ["Vertical", "Horizontal", "Top", "Right", "Bottom", "Left"]

/-- **What a box shorthand writes**: a length on all sides or on some. -/
inductive BoxWrite (name : String) : String → StyleValue → Prop
  | all {w : StyleValue} (hw : w.IsLengthPart) : BoxWrite name name w
  | side {side : String} {w : StyleValue} (hside : side ∈ boxSides) (hw : w.IsLengthPart) :
    BoxWrite name (name ++ side) w

theorem boxWrite_of_boxWrites {name : String} {values : List StyleValue}
    {writes : List (String × StyleValue)} (h : boxWrites name values = some writes)
    (hvalues : ∀ w ∈ values, w.IsLengthPart) : ∀ e ∈ writes, BoxWrite name e.1 e.2 := by
  unfold boxWrites at h
  split at h
  · cases h
    simp only [List.forall_mem_cons, List.not_mem_nil, false_imp_iff, implies_true, and_true]
      at hvalues ⊢
    exact .all hvalues
  · cases h
    simp only [List.forall_mem_cons, List.not_mem_nil, false_imp_iff, implies_true, and_true]
      at hvalues ⊢
    obtain ⟨hv, hh⟩ := hvalues
    exact ⟨.side (by decide) hv, .side (by decide) hh⟩
  · cases h
    simp only [List.forall_mem_cons, List.not_mem_nil, false_imp_iff, implies_true, and_true]
      at hvalues ⊢
    obtain ⟨ht, hh, hb⟩ := hvalues
    exact ⟨.side (by decide) ht, .side (by decide) hh, .side (by decide) hb⟩
  · cases h
    simp only [List.forall_mem_cons, List.not_mem_nil, false_imp_iff, implies_true, and_true]
      at hvalues ⊢
    obtain ⟨ht, hr, hb, hl⟩ := hvalues
    exact ⟨.side (by decide) ht, .side (by decide) hr, .side (by decide) hb, .side (by decide) hl⟩
  · cases h

/-- **Every write of a box shorthand** is a length at one of its names. -/
theorem boxWrite_of_mem {name : String} {v : Json} {p : StylePatch} (h : box name v = .ok p) :
    ∀ e ∈ p.writes, BoxWrite name e.1 e.2 := by
  have hinner := eq_ok_of_mapError h
  split at hinner
  · rename_i n
    cases hinner
    exact forall_mem_one (.all (.inl ⟨n.value, rfl⟩))
  · rename_i s
    unfold boxOfText at hinner
    dsimp only at hinner
    split at hinner
    · cases hinner
    · split at hinner
      · rename_i writes hwrites
        cases hinner
        refine boxWrite_of_boxWrites hwrites fun w hw => ?_
        obtain ⟨word, -, hword⟩ := List.mem_filterMap.1 hw
        exact StyleValue.isLengthPart_of_lengthPart? hword
      · cases hinner
  · cases hinner

/-! ## Borders -/

/-- **What a border shorthand writes**: a width, the text of a colour token, or a line style. -/
inductive BorderWrite (side : String) : String → StyleValue → Prop
  | width (x : FiniteDouble) : BorderWrite side (widthName side) (.number x)
  | color {cs : List Char} {t : Token} (ht : t ∈ Token.scan cs) (hcolor : t.isColor) :
    BorderWrite side (colorName side) (.ofText t.text)
  | line {l : List Char} (hside : side = "") (hl : l ∈ lineStyles) :
    BorderWrite side "borderStyle" (.ofText l)

/-- The colours in a text are the texts of its colour tokens. -/
theorem exists_token_of_mem_colors {tokens : List Token} {color : List Char}
    (h : color ∈ tokens.filterMap Token.color?) : ∃ t ∈ tokens, t.isColor ∧ t.text = color := by
  obtain ⟨t, ht, hcolor⟩ := List.mem_filterMap.1 h
  obtain ⟨hisColor, htext⟩ := Option.ite_none_right_eq_some.1 hcolor
  exact ⟨t, ht, hisColor, Option.some.inj htext⟩

theorem mem_lineStyles_of_lineStyle? {t : Token} {l : List Char} (h : lineStyle? t = some l) :
    l ∈ lineStyles := by
  unfold lineStyle? at h
  dsimp only at h
  split at h
  · rename_i hline
    cases h
    exact List.contains_iff_mem.1 hline.2
  · cases h

theorem borderWrite_of_mem_partsWrites {side : String} {cs : List Char} :
    ∀ e ∈ (BorderParts.ofTokens (Token.scan cs)).writes side, BorderWrite side e.1 e.2 := by
  intro e he
  simp only [BorderParts.writes, BorderParts.ofTokens, List.mem_append, List.mem_map,
    Option.mem_toList] at he
  rcases he with (⟨x, -, rfl⟩ | ⟨color, hcolor, rfl⟩) | he
  · exact .width x
  · obtain ⟨t, ht, hisColor, rfl⟩ := exists_token_of_mem_colors (List.mem_of_getLast? hcolor)
    exact .color ht hisColor
  · split at he
    · rename_i hside
      obtain ⟨l, hl, rfl⟩ := List.mem_map.1 he
      obtain ⟨t, -, ht⟩ := List.mem_filterMap.1 (List.mem_of_getLast? (Option.mem_toList.1 hl))
      exact .line hside (mem_lineStyles_of_lineStyle? ht)
    · cases he

/-- **Every write of a border shorthand** is one of the parts of a border. -/
theorem borderWrite_of_mem {property side : String} {v : Json} {p : StylePatch}
    (h : border property side v = .ok p) : ∀ e ∈ p.writes, BorderWrite side e.1 e.2 := by
  have hinner := eq_ok_of_mapError h
  split at hinner
  · rename_i n
    cases hinner
    exact forall_mem_one (.width n.value)
  · unfold borderOfText at hinner
    split at hinner
    · cases hinner
      exact forall_mem_one (.width FiniteDouble.zero)
    · dsimp only at hinner
      split at hinner
      · cases hinner
      · cases hinner
        exact borderWrite_of_mem_partsWrites
  · cases hinner

/-! ## Shadows -/

/-- **What a shadow shorthand writes**: two offsets, a blur, the opacity of the settings, the text
of a colour token and an elevation. -/
inductive ShadowWrite (c : Config) : String → StyleValue → Prop
  | offset (x y : FiniteDouble) : ShadowWrite c "shadowOffset" (.offset x y)
  | radius (x : FiniteDouble) : ShadowWrite c "shadowRadius" (.number x)
  | opacity : ShadowWrite c "shadowOpacity" (.number c.shadowOpacity)
  | color {cs : List Char} {t : Token} (ht : t ∈ Token.scan cs) (hcolor : t.isColor) :
    ShadowWrite c "shadowColor" (.ofText t.text)
  | elevation (x : FiniteDouble) : ShadowWrite c "elevation" (.number x)

theorem shadowWrite_of_mem_shadowWrites {c : Config} {x y blur : FiniteDouble} {cs : List Char} :
    ∀ e ∈ shadowWrites c x y blur ((Token.scan cs).findSome? Token.color?),
      ShadowWrite c e.1 e.2 := by
  intro e he
  simp only [shadowWrites, List.mem_append, List.mem_cons, List.not_mem_nil, or_false,
    List.mem_map, Option.mem_toList] at he
  rcases he with ((rfl | rfl | rfl) | ⟨color, hcolor, rfl⟩) | rfl
  · exact .offset x y
  · exact .radius blur
  · exact .opacity
  · obtain ⟨t, ht, htext⟩ := List.exists_of_findSome?_eq_some hcolor
    obtain ⟨u, hu, hisColor, rfl⟩ := exists_token_of_mem_colors (List.mem_filterMap.2 ⟨t, ht, htext⟩)
    exact .color hu hisColor
  · exact .elevation (elevation blur)

/-- **Every write of a shadow shorthand** is one of the parts of a shadow. -/
theorem shadowWrite_of_mem {c : Config} {v : Json} {p : StylePatch} (h : boxShadow c v = .ok p) :
    ∀ e ∈ p.writes, ShadowWrite c e.1 e.2 := by
  have hinner := eq_ok_of_mapError h
  split at hinner
  · unfold shadowOfText at hinner
    split at hinner
    · cases hinner
    · dsimp only at hinner
      split at hinner
      · cases hinner
        exact shadowWrite_of_mem_shadowWrites
      · cases hinner
  · cases hinner

/-! ## Fonts -/

/-- **What a font shorthand writes**: an italic style, small capitals as often as they are asked for,
a weight, a size, a line height and a family. -/
inductive FontWrite : String → StyleValue → Prop
  | style : FontWrite "fontStyle" (.text "italic")
  | variant (k : Nat) : FontWrite "fontVariant" (.list (List.replicate (k + 1) "small-caps"))
  | weight {word lower : List Char} (h : FontModifier.ofWord? word = some (.weight lower)) :
    FontWrite "fontWeight" (.ofText lower)
  | size (x : FiniteDouble) : FontWrite "fontSize" (.number x)
  | lineHeight (x : FiniteDouble) : FontWrite "lineHeight" (.number x)
  | family {cs family : List Char} (h : firstFamily? cs = some family) :
    FontWrite "fontFamily" (.ofText family)

theorem fontWrite_of_mem_modifierWrites {words : List (List Char)} :
    ∀ e ∈ modifierWrites (words.filterMap FontModifier.ofWord?), FontWrite e.1 e.2 := by
  intro e he
  simp only [modifierWrites, List.mem_append, List.mem_map, Option.mem_toList] at he
  rcases he with (he | he) | ⟨lower, hlower, rfl⟩
  · split at he
    · obtain rfl := List.mem_singleton.1 he
      exact .style
    · cases he
  · split at he
    · rename_i hsmall
      obtain rfl := List.mem_singleton.1 he
      obtain ⟨k, hk⟩ := Nat.exists_eq_add_of_le' (List.count_pos_iff.2 (List.contains_iff_mem.1 hsmall))
      rw [hk]
      exact .variant k
    · cases he
  · obtain ⟨modifier, hmodifier, hweight⟩ := List.mem_filterMap.1 (List.mem_of_getLast? hlower)
    obtain ⟨word, -, hword⟩ := List.mem_filterMap.1 hmodifier
    cases modifier with
    | weight word => cases hweight; exact .weight hword
    | _ => cases hweight

theorem fontWrite_of_mem_sizeWrites (f : FontSize) : ∀ e ∈ f.writes, FontWrite e.1 e.2 := by
  intro e he
  simp only [FontSize.writes, List.mem_cons, List.mem_map, Option.mem_toList] at he
  rcases he with rfl | ⟨height, -, rfl⟩
  · exact .size f.size
  · exact .lineHeight height

theorem fontWrite_of_mem_fontOfText {cs : List Char} {p : StylePatch} (h : fontOfText cs = .ok p) :
    ∀ e ∈ p.writes, FontWrite e.1 e.2 := by
  unfold fontOfText at h
  dsimp only at h
  split at h
  · cases h
  · split at h
    · cases h
    · split at h
      · cases h
      · rename_i family hfamily
        obtain rfl := Except.ok.inj h
        intro e he
        rcases List.mem_append.1 he with he | he
        · rcases List.mem_append.1 he with he | he
          · exact fontWrite_of_mem_modifierWrites e he
          · exact fontWrite_of_mem_sizeWrites _ e he
        · obtain rfl := List.mem_singleton.1 he
          exact .family hfamily

/-- **Every write of a font shorthand** is one of the parts of a font. -/
theorem fontWrite_of_mem {v : Json} {p : StylePatch} (h : font v = .ok p) :
    ∀ e ∈ p.writes, FontWrite e.1 e.2 := by
  have hinner := eq_ok_of_mapError h
  split at hinner
  · exact fontWrite_of_mem_fontOfText hinner
  · cases hinner

theorem firstFamily?_ne_nil {cs family : List Char} (h : firstFamily? cs = some family) :
    family ≠ [] := by
  unfold firstFamily? at h
  dsimp only at h
  split at h
  · cases h
  · rename_i hempty
    cases h
    rintro hnil
    rw [hnil] at hempty
    exact hempty rfl

/-! ## Radii -/

theorem roundedRadius_cases (c : Config) (x : FiniteDouble) :
    roundedRadius c x = c.pillRadius
      ∨ ∃ y : FiniteDouble, roundedRadius c x = y ∧ Double.le c.roundedThreshold y = false := by
  unfold roundedRadius
  split
  · exact .inl rfl
  · rename_i hbelow
    exact .inr ⟨x, rfl, Bool.eq_false_iff.2 hbelow⟩

/-- **A radius is that of a pill or lies below the threshold.** -/
theorem borderRadius_cases {c : Config} {v : Json} {x : Double} (h : borderRadius c v = .ok x) :
    x = c.pillRadius ∨ ∃ y : FiniteDouble, x = y ∧ Double.le c.roundedThreshold y = false := by
  have hinner := eq_ok_of_mapError h
  split at hinner
  · rename_i n
    cases hinner
    exact roundedRadius_cases c n.value
  · unfold radiusOfText at hinner
    split at hinner
    · cases hinner
    · split at hinner
      · cases hinner
      · rename_i d _
        cases hinner
        cases d.isPercent with
        | true => exact .inl rfl
        | false => exact roundedRadius_cases c d.value
  · cases hinner

end Shorthand

end ScreenLayout
