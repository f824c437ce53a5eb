import ScreenLayout.Proofs.Style.GradientText
import ScreenLayout.Proofs.Style.RuleWrites

/-!
# Proofs/Style/Patches — what a patch holds

A rule that does not refuse a value writes at least one property, and no gradient unless a background
was read as one.  There is one exception: the border of one side counts a line style as a part of it,
but has no property to write it to.

* `StylePatch.IsPlain` — some properties and no gradient.
* `Shorthand.LineOnly` — the border of one side with nothing but a line style.
* `Rule.patch_cases` — a patch is plain, empty for such a border, or a gradient and its first colour.
* `exists_parse?_of_gradient_compile` — a compiled gradient was read from a text.
-/

namespace ScreenLayout

/-- **A plain patch** writes some property, and no gradient. -/
structure StylePatch.IsPlain (p : StylePatch) : Prop where
  writes_ne_nil : p.writes ≠ []
  no_gradient : p.gradient = none

theorem StylePatch.isPlain_one (name : String) (w : StyleValue) : (one name w).IsPlain :=
  ⟨List.cons_ne_nil _ _, rfl⟩

namespace Shorthand

variable {name property side : String} {v : Json} {p : StylePatch}

/-- A box that is read writes at least one property: a count of words with no meaning is refused. -/
theorem isPlain_of_box (h : box name v = .ok p) : p.IsPlain := by
  have hinner := eq_ok_of_mapError h
  split at hinner
  · cases hinner
    exact StylePatch.isPlain_one _ _
  · unfold boxOfText at hinner
    dsimp only at hinner
    split at hinner
    · cases hinner
    · split at hinner
      · rename_i writes hwrites
        cases hinner
        refine ⟨?_, rfl⟩
        rintro rfl
        unfold boxWrites at hwrites
        split at hwrites <;> cases hwrites
      · cases hinner
  · cases hinner

/-- A shadow that is read writes its offset at least. -/
theorem isPlain_of_boxShadow {c : Config} (h : boxShadow c v = .ok p) : p.IsPlain := by
  have hinner := eq_ok_of_mapError h
  split at hinner
  · unfold shadowOfText at hinner
    split at hinner
    · cases hinner
    · dsimp only at hinner
      split at hinner
      · cases hinner
        exact ⟨List.cons_ne_nil _ _, rfl⟩
      · cases hinner
  · cases hinner

/-- A font that is read writes its size and its family at least. -/
theorem isPlain_of_font (h : font v = .ok p) : p.IsPlain := by
  have hinner := eq_ok_of_mapError h
  split at hinner
  · unfold fontOfText at hinner
    dsimp only at hinner
    split at hinner
    · cases hinner
    · split at hinner
      · cases hinner
      · split at hinner
        · cases hinner
        · obtain rfl := Except.ok.inj hinner
          exact ⟨List.append_ne_nil_of_right_ne_nil _ (List.cons_ne_nil _ _), rfl⟩
  · cases hinner

/-! ## The border of one side -/

/-- **A border of one side with nothing but a line style**: no token of the text is a length or a
colour. -/
structure LineOnly (side : String) (cs : List Char) : Prop where
  one_side : side ≠ ""
  not_none : Text.sameAscii cs "none".toList = false
  no_width : (BorderParts.ofTokens (Token.scan cs)).width = none
  no_color : (BorderParts.ofTokens (Token.scan cs)).color = none
  line : (BorderParts.ofTokens (Token.scan cs)).line.isSome

/-- A line style alone leaves no write for one side, and is no empty border. -/
theorem borderOfText_of_lineOnly {cs : List Char} (h : LineOnly side cs) :
    borderOfText side cs = .ok {} := by
  have hempty : (BorderParts.ofTokens (Token.scan cs)).isEmpty = false := by
    rw [BorderParts.isEmpty, Option.isNone_eq_false_iff.2 h.line, Bool.and_false]
  have hwrites : (BorderParts.ofTokens (Token.scan cs)).writes side = [] := by
    rw [BorderParts.writes, h.no_width, h.no_color, if_neg h.one_side]
    rfl
  rw [borderOfText, h.not_none]
  dsimp only
  rw [hempty, hwrites]
  rfl

/-- Parts that are there and write nothing are a line style for one side. -/
theorem BorderParts.line_of_writes_eq_nil {parts : BorderParts} (hempty : parts.isEmpty = false)
    (hwrites : parts.writes side = []) :
    side ≠ "" ∧ parts.width = none ∧ parts.color = none ∧ parts.line.isSome := by
  obtain ⟨hfront, hline⟩ := List.append_eq_nil_iff.1 hwrites
  obtain ⟨hwidth, hcolor⟩ := List.append_eq_nil_iff.1 hfront
  rw [List.map_eq_nil_iff, Option.toList_eq_nil_iff] at hwidth hcolor
  have hsome : parts.line.isSome := by
    rw [isEmpty, hwidth, hcolor] at hempty
    exact Option.isNone_eq_false_iff.1 hempty
  refine ⟨fun hside => ?_, hwidth, hcolor, hsome⟩
  rw [if_pos hside, List.map_eq_nil_iff, Option.toList_eq_nil_iff] at hline
  rw [hline] at hsome
  cases hsome

/-- **A border that is read writes something, unless it is a line style for one side**: then it is
not empty, as it has a part, and that part is written for no side. -/
theorem isPlain_or_lineOnly_of_borderOfText {cs : List Char} (h : borderOfText side cs = .ok p) :
    p.IsPlain ∨ LineOnly side cs ∧ p = {} := by
  unfold borderOfText at h
  split at h
  · cases h
    exact .inl (StylePatch.isPlain_one _ _)
  · rename_i hnone
    dsimp only at h
    split at h
    · cases h
    · rename_i hempty
      cases h
      by_cases hwrites : (BorderParts.ofTokens (Token.scan cs)).writes side = []
      · obtain ⟨hside, hwidth, hcolor, hline⟩ :=
          BorderParts.line_of_writes_eq_nil (Bool.eq_false_iff.2 hempty) hwrites
        exact .inr ⟨⟨hside, Bool.eq_false_iff.2 hnone, hwidth, hcolor, hline⟩, by rw [hwrites]⟩
      · exact .inl ⟨hwrites, rfl⟩

/-- A border is a number, which is its width, or a text that is trimmed before it is read. -/
theorem isPlain_or_lineOnly_of_border (h : border property side v = .ok p) :
    p.IsPlain ∨ ∃ s, v = .string s ∧ LineOnly side (Text.trim s.toList) ∧ p = {} := by
  have hinner := eq_ok_of_mapError h
  split at hinner
  · cases hinner
    exact .inl (StylePatch.isPlain_one _ _)
  · rename_i s
    exact (isPlain_or_lineOnly_of_borderOfText hinner).imp_right fun hline => ⟨s, rfl, hline⟩
  · cases hinner

end Shorthand

/-! ## Backgrounds -/

/-- **The patch of a gradient**: its first colour, and the gradient. -/
def StylePatch.ofGradient (g : Gradient) : StylePatch where
  writes := g.colors.head?.toList.map fun color => ("backgroundColor", .text color)
  gradient := some g

/-- A gradient that is read has a colour, so its patch writes one. -/
theorem StylePatch.writes_ofGradient_ne_nil {cs : List Char} {g : Gradient}
    (h : Gradient.parse? cs = some g) : (ofGradient g).writes ≠ [] := by
  obtain ⟨angle, colors, rfl, hne, -⟩ := Gradient.exists_of_parse? h
  obtain ⟨color, colors, rfl⟩ := List.exists_cons_of_ne_nil hne
  exact List.cons_ne_nil _ _

/-- **A background writes one property, or a gradient with its first colour.** -/
theorem isPlain_or_ofGradient_of_backgroundPatch {v : Json} {p : StylePatch}
    (h : backgroundPatch v = .ok p) :
    p.IsPlain ∨ ∃ s g, v = .string s ∧ Gradient.parse? (Text.trim s.toList) = some g ∧
      p = .ofGradient g := by
  unfold backgroundPatch at h
  split at h
  · rename_i s
    dsimp only at h
    split at h
    · split at h
      · rename_i _ g hg
        cases h
        exact .inr ⟨s, g, rfl, hg, rfl⟩
      · cases h
        exact .inl (StylePatch.isPlain_one _ _)
      · cases h
    · cases h
      exact .inl (StylePatch.isPlain_one _ _)
  · cases h
    exact .inl (StylePatch.isPlain_one _ _)

/-! ## All rules -/

/-- **What the patch of a rule is**: plain, or that of a gradient, or empty for a border of one side
with nothing but a line style. -/
theorem Rule.patch_cases {c : Config} {property : String} {v : Json} {p : StylePatch} {r : Rule}
    (h : r.patch c property v = .ok p) :
    p.IsPlain
      ∨ (r = background ∧ ∃ s g, v = .string s ∧ Gradient.parse? (Text.trim s.toList) = some g ∧
          p = .ofGradient g)
      ∨ ∃ side s, r = border side ∧ v = .string s ∧
          Shorthand.LineOnly side (Text.trim s.toList) ∧ p = {} := by
  have hone : ∀ {α : Type} {f : α → StylePatch} {read : Option α}, (∀ a, (f a).IsPlain) →
      orUnreadable property v f read = .ok p → p.IsPlain := by
    intro α f read hf h
    obtain ⟨a, -, rfl⟩ := exists_of_orUnreadable h
    exact hf a
  cases r with
  | unsupported => cases h
  | box => exact .inl (Shorthand.isPlain_of_box h)
  | border side =>
    exact (Shorthand.isPlain_or_lineOnly_of_border h).imp_right fun ⟨s, hs, hline, hp⟩ =>
      .inr ⟨side, s, rfl, hs, hline, hp⟩
  | boxShadow => exact .inl (Shorthand.isPlain_of_boxShadow h)
  | font => exact .inl (Shorthand.isPlain_of_font h)
  | background =>
    exact (isPlain_or_ofGradient_of_backgroundPatch (eq_ok_of_mapError h)).imp_right fun hg =>
      .inl ⟨rfl, hg⟩
  | borderRadius =>
    cases hx : Shorthand.borderRadius c v with
    | error error => rw [patch, hx] at h; cases h
    | ok x =>
      rw [patch, hx] at h
      cases h
      exact .inl (StylePatch.isPlain_one _ _)
  | fontVariant =>
    rw [patch] at h
    split at h
    · cases h
    · cases h
      exact .inl (StylePatch.isPlain_one _ _)
  | opacity | opacityPercent | fontFamily | fontWeight | letterSpacing =>
    exact .inl (hone (fun _ => StylePatch.isPlain_one _ _) h)
  | lengthAs _ | fontStyle | textDecoration | objectFit | keyword | length | unitless | other =>
    cases h
    exact .inl (StylePatch.isPlain_one _ _)

/-! ## Entries and styles -/

section Entries

variable {c : Config} {entry : String × Json}

theorem patch_compileEntry_of_ok {v : Json} {p : StylePatch} (hv : c.resolver.unwrap entry.2 = some v)
    (hp : (Rule.ofName (canonicalName entry.1)).patch c (canonicalName entry.1) v = .ok p) :
    (compileEntry c entry).patch = p := by
  simp only [compileEntry, hv, hp]

theorem styleAlone_eq_empty (h : (compileEntry c entry).patch = {}) :
    styleAlone c entry = Style.empty := by
  rw [styleAlone_eq, h]
  rfl

/-- **An entry writes what its rule writes**, or nothing. -/
theorem patch_compileEntry_cases (c : Config) (entry : String × Json) :
    (∃ v, c.resolver.unwrap entry.2 = some v ∧
        (Rule.ofName (canonicalName entry.1)).patch c (canonicalName entry.1) v
          = .ok (compileEntry c entry).patch)
      ∨ (compileEntry c entry).patch = {} := by
  unfold compileEntry
  dsimp only
  split
  · exact .inr rfl
  · rename_i v hv
    split
    · rename_i p hp
      exact .inl ⟨v, hv, hp⟩
    · exact .inr rfl

/-- **A compiled value is in the patch of some entry.** -/
theorem exists_patch_of_get?_compile {entries : List (String × Json)} {name : String} {w : StyleValue}
    (h : (compile c entries).style.get? name = some w) :
    ∃ entry ∈ entries, ∃ v p, c.resolver.unwrap entry.2 = some v ∧
      (Rule.ofName (canonicalName entry.1)).patch c (canonicalName entry.1) v = .ok p ∧
      (name, w) ∈ p.writes := by
  rw [get?_compile] at h
  obtain ⟨entry, hentry, hget⟩ := List.exists_of_findSome?_eq_some h
  rw [get?_styleAlone] at hget
  have hmem := mem_of_lastWrite? hget
  rcases patch_compileEntry_cases c entry with ⟨v, hv, hp⟩ | hnone
  · exact ⟨entry, List.mem_reverse.1 hentry, v, _, hv, hp, hmem⟩
  · rw [hnone] at hmem
    cases hmem

/-- **An entry that sets a gradient** is a background with a text of it. -/
theorem background_of_gradient_styleAlone {g : Gradient}
    (h : (styleAlone c entry).gradient = some g) :
    Rule.ofName (canonicalName entry.1) = .background ∧ ∃ s,
      c.resolver.unwrap entry.2 = some (.string s) ∧
        Gradient.parse? (Text.trim s.toList) = some g := by
  rw [gradient_styleAlone] at h
  rcases patch_compileEntry_cases c entry with ⟨v, hv, hp⟩ | hp
  · rcases Rule.patch_cases hp with hplain | ⟨hrule, s, g', rfl, hread, hg'⟩ | ⟨_, _, -, -, -, hnone⟩
    · rw [hplain.no_gradient] at h
      cases h
    · rw [hg'] at h
      obtain rfl := Option.some.inj h
      exact ⟨hrule, s, hv, hread⟩
    · rw [hnone] at h
      cases h
  · rw [hp] at h
    cases h

/-- **A compiled gradient was read from a text.** -/
theorem exists_parse?_of_gradient_compile {entries : List (String × Json)} {g : Gradient}
    (h : (compile c entries).style.gradient = some g) : ∃ cs, Gradient.parse? cs = some g := by
  rw [gradient_compile] at h
  obtain ⟨entry, -, hg⟩ := List.exists_of_findSome?_eq_some h
  obtain ⟨-, t, -, hread⟩ := background_of_gradient_styleAlone hg
  exact ⟨_, hread⟩

end Entries

end ScreenLayout
