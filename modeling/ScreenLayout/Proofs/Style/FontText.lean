import ScreenLayout.Proofs.Style.Dimension
import ScreenLayout.Proofs.Style.FontParts
import ScreenLayout.Proofs.Text.Squeeze

/-!
# Proofs/Style/FontText — the texts of fonts

A font text is words before the size, the size with a line height or none, and a list of families,
with blanks between any two of them.  These are the texts that are accepted, and each part is written
as what it says.

    italic  BOLD 12px/1.5  'Open   Sans' , Arial
      ──▸   fontStyle italic, fontWeight bold, fontSize 12, lineHeight 1.5, fontFamily Open Sans

* `Shorthand.FontText` — the parts of a font text, `Shorthand.FontText.chars` the text.
* `Shorthand.FontText.parts` — the words of such a text are read as its parts.
* `Shorthand.exists_fontText` — every text that is accepted is one.
* `Shorthand.font_decodes` — the texts that are accepted, and what they write.
-/

namespace ScreenLayout.Shorthand

open Text

variable {cs word : List Char}

/-! ## Families -/

/-- **The first entry of a list of families**, without the blanks, the quotes, and the blanks around
it. -/
def familyEntry (cs : List Char) : List Char :=
  trim (dropEndWhile isQuote ((trim (cs.takeWhile (· != ','))).dropWhile isQuote))

theorem firstFamily?_eq_some_iff {family : List Char} :
    firstFamily? cs = some family ↔ familyEntry cs ≠ [] ∧ familyEntry cs = family := by
  have hread : firstFamily? cs
      = if (familyEntry cs).isEmpty then none else some (familyEntry cs) := rfl
  rw [hread, Option.ite_none_left_eq_some, Option.some_inj, List.isEmpty_iff]

theorem bne_comma_of_isBlank {b : Char} (hb : isBlank b) : (b != ',') = true := by
  refine bne_iff_ne.2 ?_
  rintro rfl
  cases hb

theorem familyEntry_trim (cs : List Char) : familyEntry (trim cs) = familyEntry cs := by
  rw [familyEntry, trim_takeWhile_trim fun _ => bne_comma_of_isBlank, ← familyEntry]

/-- **Squeezing keeps the first entry**: no blank is a comma or a quote. -/
theorem familyEntry_squeeze (cs : List Char) : familyEntry (squeeze cs) = squeeze (familyEntry cs) := by
  have hcomma : ∀ b, isBlank b → (b != ',') = (' ' != ',') := fun _ => bne_comma_of_isBlank
  have hquote : ∀ b, isBlank b → isQuote b = isQuote ' ' :=
    fun _ hb => eq_false_of_isBlank (by decide) hb
  rw [familyEntry, familyEntry, squeeze_trim, squeeze_dropEndWhile hquote, squeeze_dropWhile hquote,
    squeeze_trim, squeeze_takeWhile hcomma]

/-- **The family of the words of a text** is its first entry, with a space for each run of blanks. -/
theorem firstFamily?_joined_words {family : List Char} :
    firstFamily? (joined [' '] (words cs)) = some family
      ↔ familyEntry cs ≠ [] ∧ squeeze (familyEntry cs) = family := by
  rw [firstFamily?_eq_some_iff, joined_words, familyEntry_squeeze, familyEntry_trim, ne_eq, ne_eq,
    squeeze_eq_nil_iff]

/-! ## The parts of a text -/

/-- **Blanks between two parts**: one at least. -/
structure Gap where
  chars : List Char
  ne_nil : chars ≠ []
  isBlank : ∀ c ∈ chars, Text.isBlank c

/-- **A word before the size**, in any case. -/
structure ModifierWord where
  chars : List Char
  isModifier : IsModifier (lowerAscii chars)

/-- **A word that spells a length.** -/
structure LengthWord where
  chars : List Char
  dimension : Dimension
  parse?_eq : Dimension.parse? chars = some dimension
  free : ∀ c ∈ chars, isBlank c = false

/-- The text of words with blanks behind each. -/
def modifierChars (modifiers : List (ModifierWord × Gap)) : List Char :=
  modifiers.flatMap fun m => m.1.chars ++ m.2.chars

/-- The size, and the line height after a slash if there is one. -/
def sizeChars (size : LengthWord) (lineHeight : Option LengthWord) : List Char :=
  size.chars ++ lineHeight.elim [] fun h => '/' :: h.chars

/-- **The parts of a font text**: blanks, words before the size, the size with a line height or none,
blanks, and families of which the first is not empty.  A size without a line height is no weight. -/
structure FontText where
  lead : List Char
  isBlank_lead : ∀ c ∈ lead, isBlank c
  modifiers : List (ModifierWord × Gap)
  size : LengthWord
  lineHeight : Option LengthWord
  not_weight : lineHeight = none → ¬ isNumericWeight size.chars
  gap : Gap
  families : List Char
  entry_ne_nil : familyEntry families ≠ []

namespace FontText

/-- **The text of its parts.** -/
def chars (x : FontText) : List Char :=
  x.lead ++ (modifierChars x.modifiers ++ (sizeChars x.size x.lineHeight
    ++ (x.gap.chars ++ x.families)))

/-- The names of the words before the size, in lower case. -/
def names (x : FontText) : List (List Char) := namesOf (x.modifiers.map (·.1.chars))

/-- The numbers of the size and the line height. -/
def fontSize (x : FontText) : FontSize where
  size := x.size.dimension.value
  lineHeight := x.lineHeight.map (·.dimension.value)

/-- **What the parts of a text say** under each name. -/
def value? (x : FontText) : String → Option StyleValue :=
  fontValue? x.names x.fontSize (squeeze (familyEntry x.families))

end FontText

/-! ## Words before the size -/

theorem ModifierWord.isWord (m : ModifierWord) :
    m.chars ≠ [] ∧ ∀ c ∈ m.chars, Text.isBlank c = false := by
  obtain ⟨hne, hfree⟩ := m.isModifier.isWord
  refine ⟨fun hnil => hne (by rw [hnil]; rfl), fun c hc => ?_⟩
  rw [← isBlank_toLower]
  exact hfree _ (List.mem_map_of_mem hc)

theorem Gap.isBlank_head? (gap : Gap) (back : List Char) :
    ∀ c ∈ (gap.chars ++ back).head?, Text.isBlank c := by
  intro c hc
  obtain ⟨b, rest, hchars⟩ := List.exists_cons_of_ne_nil gap.ne_nil
  rw [hchars] at hc
  obtain rfl : b = c := Option.some.inj hc
  exact gap.isBlank b (hchars ▸ List.mem_cons_self)

/-- **A word before a gap** is the first of the words. -/
theorem words_append_gap (hword : word ≠ [] ∧ ∀ c ∈ word, isBlank c = false) (gap : Gap)
    (back : List Char) : words (word ++ (gap.chars ++ back)) = word :: words back := by
  rw [words_append_of_free hword.1 hword.2 (gap.isBlank_head? back),
    words_append_of_blank gap.isBlank]

theorem modifierChars_cons_append (m : ModifierWord × Gap) (modifiers : List (ModifierWord × Gap))
    (back : List Char) : modifierChars (m :: modifiers) ++ back
      = m.1.chars ++ (m.2.chars ++ (modifierChars modifiers ++ back)) := by
  simp only [modifierChars, List.flatMap_cons, List.append_assoc]

theorem words_modifierChars (modifiers : List (ModifierWord × Gap)) (back : List Char) :
    words (modifierChars modifiers ++ back) = modifiers.map (·.1.chars) ++ words back := by
  induction modifiers with
  | nil => rfl
  | cons m modifiers ih =>
    rw [modifierChars_cons_append, words_append_gap m.1.isWord, ih]
    rfl

/-- **The words before the size** are written with the blanks behind each. -/
theorem exists_modifierChars {front : List (List Char)} {rest : List (List Char)}
    (hstart : ∀ c ∈ cs.head?, isBlank c = false) (h : words cs = front ++ word :: rest)
    (hfront : ∀ w ∈ front, IsModifier (lowerAscii w)) :
    ∃ modifiers gap tail, cs = modifierChars modifiers ++ (word ++ (gap ++ tail)) ∧
      (∀ c ∈ gap, isBlank c) ∧ (tail ≠ [] → gap ≠ []) ∧ words tail = rest := by
  induction front generalizing cs with
  | nil =>
    obtain ⟨gap, tail, hcs, hgap, hne, -, hrest⟩ := exists_of_words_eq_cons hstart h
    exact ⟨[], gap, tail, hcs, hgap, hne, hrest⟩
  | cons w front ih =>
    obtain ⟨hw, hfront⟩ := List.forall_mem_cons.1 hfront
    obtain ⟨gap, tail, rfl, hgap, hne, htail, hrest⟩ := exists_of_words_eq_cons hstart h
    have htailne : tail ≠ [] := by
      rintro rfl
      exact absurd hrest.symm (List.append_ne_nil_of_right_ne_nil front (List.cons_ne_nil word rest))
    obtain ⟨modifiers, gap', tail', rfl, hgap', hne', hrest'⟩ := ih htail hrest hfront
    refine ⟨(⟨w, hw⟩, ⟨gap, hne htailne, hgap⟩) :: modifiers, gap', tail', ?_, hgap', hne', hrest'⟩
    rw [modifierChars_cons_append]

/-! ## The size -/

theorem LengthWord.exists_isDigit (size : LengthWord) : ∃ c ∈ size.chars, c.isDigit := by
  obtain ⟨c, hc, hdigit⟩ := Dimension.exists_isDigit_of_parse? size.parse?_eq
  exact ⟨c, mem_of_mem_trim ((List.takeWhile_sublist _).subset hc), hdigit⟩

theorem LengthWord.slash_not_mem (size : LengthWord) : '/' ∉ size.chars := by
  intro hmem
  have hchar := Dimension.isDimensionChar_of_parse? size.parse?_eq '/' hmem
  cases hchar

theorem isWord_sizeChars (size : LengthWord) (lineHeight : Option LengthWord) :
    sizeChars size lineHeight ≠ [] ∧ ∀ c ∈ sizeChars size lineHeight, isBlank c = false := by
  constructor
  · obtain ⟨c, hc, -⟩ := size.exists_isDigit
    exact List.ne_nil_of_mem (List.mem_append_left _ hc)
  · refine List.forall_mem_append.2 ⟨size.free, ?_⟩
    cases lineHeight with
    | none => exact List.forall_mem_nil _
    | some h => exact List.forall_mem_cons.2 ⟨rfl, h.free⟩

theorem FontSize.ofWord_of_not_mem {f : FontSize} (hslash : '/' ∉ word) :
    FontSize.ofWord word = .ok f ↔ ∃ d, Dimension.parse? word = some d ∧ f = ⟨d.value, none⟩ := by
  rw [FontSize.ofWord, splitOnce?_eq_none_iff.2 hslash]
  dsimp only
  cases Dimension.parse? word <;> simp [eq_comm]

theorem FontSize.ofWord_append_slash {f : FontSize} {front : List Char} (hslash : '/' ∉ front)
    (back : List Char) : FontSize.ofWord (front ++ '/' :: back) = .ok f ↔ ∃ d h,
      Dimension.parse? front = some d ∧ Dimension.parse? back = some h ∧
        f = ⟨d.value, some h.value⟩ := by
  rw [FontSize.ofWord, splitOnce?_eq_some_iff.2 ⟨rfl, hslash⟩]
  dsimp only
  cases Dimension.parse? front with
  | none => simp
  | some d =>
    dsimp only
    cases Dimension.parse? back <;> simp [eq_comm]

/-- **A word is a size** when it spells one length, or two with a slash between them. -/
theorem FontSize.ofWord_eq_ok_iff {f : FontSize} (hfree : ∀ c ∈ word, isBlank c = false) :
    FontSize.ofWord word = .ok f ↔ ∃ size lineHeight, word = sizeChars size lineHeight ∧
      f = ⟨size.dimension.value, lineHeight.map (·.dimension.value)⟩ := by
  constructor
  · intro h
    by_cases hslash : '/' ∈ word
    · obtain ⟨front, back, rfl, hfront⟩ := List.eq_append_cons_of_mem hslash
      obtain ⟨d, d', hsize, hheight, rfl⟩ := (FontSize.ofWord_append_slash hfront back).1 h
      obtain ⟨hfreeFront, hfreeBack⟩ := List.forall_mem_append.1 hfree
      exact ⟨⟨front, d, hsize, hfreeFront⟩,
        some ⟨back, d', hheight, (List.forall_mem_cons.1 hfreeBack).2⟩, rfl, rfl⟩
    · obtain ⟨d, hsize, rfl⟩ := (FontSize.ofWord_of_not_mem hslash).1 h
      exact ⟨⟨word, d, hsize, hfree⟩, none, (List.append_nil word).symm, rfl⟩
  · rintro ⟨size, _ | h, rfl, rfl⟩
    · rw [sizeChars, Option.elim_none, List.append_nil]
      exact (FontSize.ofWord_of_not_mem size.slash_not_mem).2 ⟨_, size.parse?_eq, rfl⟩
    · exact (FontSize.ofWord_append_slash size.slash_not_mem h.chars).2
        ⟨_, _, size.parse?_eq, h.parse?_eq, rfl⟩

/-- **A size is no modifier.**  It has a digit, so it could only be a weight; but it has a slash, or is
none. -/
theorem not_isModifier_sizeChars {size : LengthWord} {lineHeight : Option LengthWord}
    (hweight : lineHeight = none → ¬ isNumericWeight size.chars) :
    ¬ IsModifier (lowerAscii (sizeChars size lineHeight)) := by
  intro hmodifier
  obtain ⟨c, hc, hdigit⟩ := size.exists_isDigit
  have hlower : c ∈ lowerAscii (sizeChars size lineHeight) := by
    rw [← toLower_of_not_isAlpha (isAlpha_of_isDigit hdigit)]
    exact List.mem_map_of_mem (List.mem_append_left _ hc)
  have hnumeric := isNumericWeight_lowerAscii_iff.1
    (hmodifier.isNumericWeight_of_isDigit hlower hdigit)
  cases lineHeight with
  | none =>
    rw [sizeChars, Option.elim_none, List.append_nil] at hnumeric
    exact hweight rfl hnumeric
  | some h =>
    have hslash : '/' ∈ sizeChars size (some h) := List.mem_append_right _ List.mem_cons_self
    obtain hplus | hdigit := eq_plus_or_isDigit_of_isNumericWeight hnumeric '/' hslash
    · cases hplus
    · cases hdigit

/-! ## The shorthand -/

namespace FontText

theorem words_chars (x : FontText) : words x.chars
    = x.modifiers.map (·.1.chars) ++ sizeChars x.size x.lineHeight :: words x.families := by
  rw [chars, words_append_of_blank x.isBlank_lead, words_modifierChars,
    words_append_gap (isWord_sizeChars x.size x.lineHeight)]

/-- **The words of a font text are read as its parts.** -/
def parts (x : FontText) : FontParts (words x.chars) where
  front := x.modifiers.map (·.1.chars)
  word := sizeChars x.size x.lineHeight
  rest := words x.families
  size := x.fontSize
  family := squeeze (familyEntry x.families)
  words_eq := x.words_chars
  isModifier_front := by
    intro w hw
    obtain ⟨m, -, rfl⟩ := List.mem_map.1 hw
    exact m.1.isModifier
  not_isModifier := not_isModifier_sizeChars x.not_weight
  size_eq := (FontSize.ofWord_eq_ok_iff (isWord_sizeChars _ _).2).2 ⟨x.size, x.lineHeight, rfl, rfl⟩
  family_eq := firstFamily?_joined_words.2 ⟨x.entry_ne_nil, rfl⟩

/-- The parts of a font text write what it says. -/
theorem exists_parts (x : FontText) (hcs : cs = x.chars) :
    ∃ y : FontParts (words cs), ∀ s : Style, (s.apply y.patch).gradient = s.gradient ∧
      ∀ name, (s.apply y.patch).get? name = (x.value? name).or (s.get? name) := by
  subst hcs
  exact ⟨x.parts, fun s => ⟨rfl, x.parts.get?_apply s⟩⟩

end FontText

/-- **Every text that is accepted has the parts of a font text.** -/
theorem exists_fontText (x : FontParts (words cs)) : ∃ y : FontText, cs = y.chars := by
  have hcut : cs.takeWhile isBlank ++ cs.dropWhile isBlank = cs := List.takeWhile_append_dropWhile
  have hlead : ∀ c ∈ cs.takeWhile isBlank, isBlank c := fun _ => List.mem_takeWhile_imp
  have hwords : words (cs.dropWhile isBlank) = x.front ++ x.word :: x.rest := by
    rw [← words_append_of_blank hlead, hcut]
    exact x.words_eq
  obtain ⟨modifiers, gap, families, htext, hgap, hne, hrest⟩ :=
    exists_modifierChars (fun _ => eq_false_of_mem_head?_dropWhile) hwords x.isModifier_front
  obtain ⟨size, lineHeight, hword, -⟩ :=
    (FontSize.ofWord_eq_ok_iff (isBlank_of_mem_words x.word_mem)).1 x.size_eq
  have hfamily := x.family_eq
  rw [← hrest, firstFamily?_joined_words] at hfamily
  have hfamilies : families ≠ [] := by
    rintro rfl
    exact hfamily.1 rfl
  refine ⟨⟨cs.takeWhile isBlank, hlead, modifiers, size, lineHeight, fun hnone hnumeric => ?_,
    ⟨gap, hne hfamilies, hgap⟩, families, hfamily.1⟩, ?_⟩
  · refine x.not_isModifier ?_
    subst hnone
    rw [hword, sizeChars, Option.elim_none, List.append_nil]
    exact .of_isNumericWeight (isNumericWeight_lowerAscii_iff.2 hnumeric)
  · rw [FontText.chars, ← hword, ← htext, hcut]

/-- **A font says what its text says.**  A text is accepted if it has the parts of a font text; then
each part is written as what it says, and nothing else changes. -/
theorem font_decodes (s : Style) :
    (∀ text : String, (∃ t, (expandFont (.string text)).run s = .ok () t) ↔
      ∃ x : FontText, text.toList = x.chars)
    ∧ ∀ x : FontText, ∃ t, (expandFont (.string (String.ofList x.chars))).run s = .ok () t ∧
        t.gradient = s.gradient ∧ ∀ name, t.get? name = (x.value? name).or (s.get? name) := by
  have hwritten : ∀ {text : String} {x : FontText}, text.toList = x.chars →
      ∃ t, (expandFont (.string text)).run s = .ok () t ∧ t.gradient = s.gradient ∧
        ∀ name, t.get? name = (x.value? name).or (s.get? name) := by
    intro text x htext
    obtain ⟨y, hy⟩ := x.exists_parts htext
    exact ⟨_, expandFont_run_eq_ok_iff.2 ⟨y, rfl⟩, hy s⟩
  refine ⟨fun text => ⟨?_, ?_⟩, fun x => hwritten String.toList_ofList⟩
  · rintro ⟨t, ht⟩
    obtain ⟨x, -⟩ := expandFont_run_eq_ok_iff.1 ht
    exact exists_fontText x
  · rintro ⟨x, hx⟩
    obtain ⟨t, ht, -⟩ := hwritten hx
    exact ⟨t, ht⟩

/-- Two words before the size, a line height, and a family in quotes with blanks in it. -/
theorem font_decodes_quoted :
    ∃ t, (expandFont (.string "italic  BOLD 12px/1.5  'Open   Sans' , Arial")).run Style.empty
        = .ok () t
      ∧ t.get? "fontStyle" = some (.text "italic") ∧ t.get? "fontVariant" = none
      ∧ t.get? "fontWeight" = some (.text "bold") ∧ t.get? "fontFamily" = some (.text "Open Sans") := by
  have hsize : (Dimension.parse? "12px".toList).isSome := by decide +kernel
  have hheight : (Dimension.parse? "1.5".toList).isSome := by decide +kernel
  have hone : ∀ c ∈ [' '], isBlank c := List.forall_mem_singleton.2 rfl
  have htwo : ∀ c ∈ [' ', ' '], isBlank c := List.forall_mem_cons.2 ⟨rfl, hone⟩
  obtain ⟨d, hd⟩ := Option.isSome_iff_exists.1 hsize
  obtain ⟨h, hh⟩ := Option.isSome_iff_exists.1 hheight
  obtain ⟨x, hx⟩ : ∃ x : FontText, x =
    { lead := []
      isBlank_lead := List.forall_mem_nil _
      modifiers :=
        [(⟨"italic".toList, .inl ⟨"italic", by decide, rfl⟩⟩, ⟨[' ', ' '], nofun, htwo⟩),
          (⟨"BOLD".toList, .inl ⟨"bold", by decide, rfl⟩⟩, ⟨[' '], nofun, hone⟩)]
      size := ⟨"12px".toList, d, hd, fun _ => eq_false_of_all (by decide)⟩
      lineHeight := some ⟨"1.5".toList, h, hh, fun _ => eq_false_of_all (by decide)⟩
      not_weight := nofun
      gap := ⟨[' ', ' '], nofun, htwo⟩
      families := "'Open   Sans' , Arial".toList
      entry_ne_nil := by decide } := ⟨_, rfl⟩
  have hchars : x.chars = "italic  BOLD 12px/1.5  'Open   Sans' , Arial".toList := by
    rw [hx]
    rfl
  have hnames : x.names = ["italic".toList, "bold".toList] := by
    rw [hx]
    rfl
  have hfamily : squeeze (familyEntry x.families) = "Open Sans".toList := by
    have hfamilies : x.families = "'Open   Sans' , Arial".toList := by rw [hx]
    rw [hfamilies]
    decide
  obtain ⟨t, ht, -, hget⟩ := (font_decodes Style.empty).2 x
  rw [hchars, String.ofList_toList] at ht
  have hvalue : ∀ name, t.get? name
      = fontValue? ["italic".toList, "bold".toList] x.fontSize "Open Sans".toList name := by
    intro name
    rw [hget, FontText.value?, hnames, hfamily]
    exact Option.or_none
  have hweight : ["italic".toList, "bold".toList].filter IsWeight = ["bold".toList] := by decide
  refine ⟨t, ht, hvalue "fontStyle", hvalue "fontVariant", (hvalue "fontWeight").trans ?_,
    hvalue "fontFamily"⟩
  rw [fontValue?, hweight]
  rfl

end ScreenLayout.Shorthand
