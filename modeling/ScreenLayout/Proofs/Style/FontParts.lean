import ScreenLayout.Proofs.Style.Expansion
import ScreenLayout.Proofs.Style.FontWords
import ScreenLayout.Proofs.Style.Merge
import ScreenLayout.Proofs.Style.ShorthandWrites

/-!
# Proofs/Style/FontParts — the parts of a font

The words of a font are cut at the first that is no modifier: it is the size, and the rest are the
families.  A weight is read as a number but written as it is spelled, in lower case.

    italic BOLD 12px Arial   ──▸   fontStyle italic, fontWeight bold
    +400 12px Arial          ──▸   fontWeight +400

* `Shorthand.fontValue?`, `Shorthand.lastWrite?_fontWrites` — what a font writes under each name.
* `Shorthand.FontParts`, `Shorthand.fontOfText_eq_ok_iff` — a font is accepted for its parts.
* `Shorthand.writes_canonical_weights_iff` — a font keeps to the names unless a hundred is padded.
-/

namespace ScreenLayout.Shorthand

variable {cs word : List Char}

/-! ## What modifiers come to -/

/-- The names of words, in lower case. -/
def namesOf (words : List (List Char)) : List (List Char) := words.map Text.lowerAscii

theorem contains_italic_filterMap (words : List (List Char)) :
    (words.filterMap FontModifier.ofWord?).contains .italic
      ↔ "italic".toList ∈ namesOf words ∨ "oblique".toList ∈ namesOf words := by
  have hword : ∀ word, FontModifier.ofWord? word = some .italic ↔
      Text.lowerAscii word = "italic".toList ∨ Text.lowerAscii word = "oblique".toList := by
    intro word
    rw [ofWord?_eq_some_iff]
    generalize Text.lowerAscii word = name
    constructor
    · rintro (_ | _)
      · exact .inl rfl
      · exact .inr rfl
    · rintro (rfl | rfl)
      · exact .italic
      · exact .oblique
  rw [List.contains_iff_mem, List.mem_filterMap]
  simp only [hword, namesOf, List.mem_map, and_or_left, exists_or]

theorem count_smallCaps_filterMap (words : List (List Char)) :
    (words.filterMap FontModifier.ofWord?).count .smallCaps
      = (namesOf words).count "small-caps".toList := by
  have hword : ∀ word, FontModifier.ofWord? word = some .smallCaps ↔
      Text.lowerAscii word = "small-caps".toList := by
    intro word
    rw [ofWord?_eq_some_iff]
    generalize Text.lowerAscii word = name
    constructor
    · rintro ⟨⟩
      rfl
    · rintro rfl
      exact .smallCaps
  rw [List.count_filterMap, List.count_eq_countP, namesOf, List.countP_map]
  refine List.countP_congr fun word _ => ?_
  rw [beq_iff_eq, hword]
  exact beq_iff_eq.symm

theorem contains_smallCaps_filterMap (words : List (List Char)) :
    (words.filterMap FontModifier.ofWord?).contains .smallCaps
      ↔ "small-caps".toList ∈ namesOf words := by
  rw [List.contains_iff_mem, ← List.count_pos_iff, count_smallCaps_filterMap, List.count_pos_iff]

theorem weights_filterMap (words : List (List Char)) :
    (words.filterMap FontModifier.ofWord?).filterMap FontModifier.weight?
      = (namesOf words).filter IsWeight := by
  have hword : ∀ word w, (FontModifier.ofWord? word).bind FontModifier.weight? = some w ↔
      IsWeight (Text.lowerAscii word) ∧ Text.lowerAscii word = w := by
    intro word w
    rw [Option.bind_eq_some_iff]
    constructor
    · rintro ⟨_ | _ | _ | weight, hm, hw⟩
      · cases hw
      · cases hw
      · cases hw
      · obtain rfl : weight = w := Option.some.inj hw
        obtain ⟨hweight, rfl⟩ := ofWord?_eq_weight_iff.1 hm
        exact ⟨hweight, rfl⟩
    · rintro ⟨hweight, rfl⟩
      exact ⟨_, ofWord?_eq_weight_iff.2 ⟨hweight, rfl⟩, rfl⟩
  rw [List.filterMap_filterMap, ← List.filterMap_eq_filter, namesOf, List.filterMap_map]
  refine List.filterMap_congr fun word _ => Option.ext fun w => ?_
  rw [hword, Function.comp_apply, Option.guard_eq_some_iff, decide_eq_true_eq, and_comm]

/-- **What a font writes** under each name: for an italic word the style, for each word of small
capitals a variant, the last of the weights, and the size, line height and family there are. -/
def fontValue? (names : List (List Char)) (size : FontSize) (family : List Char) :
    String → Option StyleValue
  | "fontStyle" =>
    if "italic".toList ∈ names ∨ "oblique".toList ∈ names then some (.text "italic") else none
  | "fontVariant" =>
    if "small-caps".toList ∈ names then
      some (.list (List.replicate (names.count "small-caps".toList) "small-caps"))
    else none
  | "fontWeight" => (names.filter IsWeight).getLast?.map .ofText
  | "fontSize" => some (.number size.size)
  | "lineHeight" => size.lineHeight.map fun h => .number (.finite h)
  | "fontFamily" => some (.ofText family)
  | _ => none

/-- **The writes of a font**, read back by name. -/
theorem lastWrite?_fontWrites (words : List (List Char)) (size : FontSize) (family : List Char)
    (name : String) :
    Properties.lastWrite? (modifierWrites (words.filterMap FontModifier.ofWord?) ++ size.writes
      ++ [("fontFamily", .ofText family)]) name = fontValue? (namesOf words) size family name := by
  have hwrites : size.writes = [("fontSize", .number size.size)]
      ++ size.lineHeight.toList.map fun h => ("lineHeight", .number (.finite h)) := rfl
  rw [modifierWrites, hwrites, count_smallCaps_filterMap, weights_filterMap]
  simp only [contains_italic_filterMap, contains_smallCaps_filterMap, Properties.lastWrite?_append,
    Properties.lastWrite?_toList_map, Properties.lastWrite?_singleton,
    apply_ite (Properties.lastWrite? · name)]
  fun_cases fontValue? (namesOf words) size family name
  case case9 hstyle hvariant hweight hsize hheight hfamily =>
    simp only [if_neg hstyle, if_neg hvariant, if_neg hweight, if_neg hsize, if_neg hheight,
      if_neg hfamily, ite_self, Option.or_none, Properties.lastWrite?_nil]
  all_goals
    simp only [*, ↓reduceIte, ite_self, String.reduceEq, Option.none_or, Option.or_none,
      Properties.lastWrite?_nil]

/-! ## The parts of a font -/

/-- **The parts that the words of a font are read as**: those before the size, the size, and the
rest. -/
structure FontParts (words : List (List Char)) where
  front : List (List Char)
  word : List Char
  rest : List (List Char)
  size : FontSize
  family : List Char
  words_eq : words = front ++ word :: rest
  isModifier_front : ∀ w ∈ front, IsModifier (Text.lowerAscii w)
  not_isModifier : ¬ IsModifier (Text.lowerAscii word)
  size_eq : FontSize.ofWord word = .ok size
  family_eq : firstFamily? (Text.joined [' '] rest) = some family

namespace FontParts

variable {words : List (List Char)}

/-- What the parts of a font write. -/
def patch (x : FontParts words) : StylePatch where
  writes := modifierWrites (x.front.filterMap FontModifier.ofWord?) ++ x.size.writes
    ++ [("fontFamily", .ofText x.family)]

theorem word_mem (x : FontParts words) : x.word ∈ words := by
  have hmem : x.word ∈ x.front ++ x.word :: x.rest := List.mem_append_right _ List.mem_cons_self
  rwa [← x.words_eq] at hmem

/-- The words are cut at the first that is no modifier. -/
theorem cut_words (x : FontParts words) :
    words.takeWhile (fun w => (FontModifier.ofWord? w).isSome) = x.front ∧
      words.dropWhile (fun w => (FontModifier.ofWord? w).isSome) = x.word :: x.rest :=
  takeWhile_dropWhile_iff.2 ⟨x.words_eq, fun w hw => isSome_ofWord?_iff.2 (x.isModifier_front w hw),
    Bool.eq_false_iff.2 fun h => x.not_isModifier (isSome_ofWord?_iff.1 h)⟩

/-- **The parts of a font are read back** from the style they are written to. -/
theorem get?_apply (x : FontParts words) (s : Style) (name : String) :
    (s.apply x.patch).get? name
      = (fontValue? (namesOf x.front) x.size x.family name).or (s.get? name) := by
  rw [Style.get?_apply, patch, lastWrite?_fontWrites]

end FontParts

/-- **A font text is accepted for its parts**, and writes them. -/
theorem fontOfText_eq_ok_iff {p : StylePatch} :
    fontOfText cs = .ok p ↔ ∃ x : FontParts (Text.words cs), p = x.patch := by
  constructor
  · intro h
    unfold fontOfText at h
    dsimp only at h
    split at h
    · cases h
    · rename_i word rest hrest
      obtain ⟨hwords, hfront, hword⟩ := takeWhile_dropWhile_iff.1 ⟨rfl, hrest⟩
      split at h
      · cases h
      · rename_i size hsize
        split at h
        · cases h
        · rename_i family hfamily
          cases h
          refine ⟨⟨_, word, rest, size, family, hwords, fun w hw => ?_, fun hmodifier => ?_, hsize,
            hfamily⟩, rfl⟩
          · exact isSome_ofWord?_iff.1 (hfront w hw)
          · rw [isSome_ofWord?_iff.2 hmodifier] at hword
            cases hword
  · rintro ⟨x, rfl⟩
    rw [fontOfText, x.cut_words.1, x.cut_words.2]
    dsimp only
    rw [x.size_eq]
    dsimp only
    rw [x.family_eq]
    rfl

/-- **A font text is accepted by every style or by none**, and writes its parts. -/
theorem expandFont_run_eq_ok_iff {text : String} {s t : Style} :
    (expandFont (.string text)).run s = .ok () t ↔
      ∃ x : FontParts (Text.words text.toList), t = s.apply x.patch := by
  have hpatch : ∀ p, font (.string text) = .ok p ↔
      ∃ x : FontParts (Text.words text.toList), p = x.patch := by
    intro p
    rw [← Text.words_trim, ← fontOfText_eq_ok_iff]
    exact mapError_eq_ok_iff
  simp only [expandFont_eq, StyleWriter.run_ofPatch_eq_ok_iff, hpatch]
  constructor
  · rintro ⟨_, ⟨x, rfl⟩, rfl⟩
    exact ⟨x, rfl⟩
  · rintro ⟨x, rfl⟩
    exact ⟨_, ⟨x, rfl⟩, rfl⟩

/-! ## Canonical weights -/

/-- **A word is the size** of a font if it spells one and is no modifier. -/
def isSizeWord (word : List Char) : Bool :=
  (FontModifier.ofWord? word).isNone && (FontSize.ofWord word).toOption.isSome

/-- **The words before the size** of a font. -/
def frontWords (text : String) : List (List Char) :=
  (Text.words text.toList).takeWhile (!isSizeWord ·)

/-- **A font keeps to the names.**  If it is accepted, the weight it writes is the name of one, and
every word before the size is a name in lower case. -/
def WritesCanonicalWeights (text : String) : Prop :=
  ∀ t, (expandFont (.string text)).run Style.empty = .ok () t →
    (∀ v, t.get? "fontWeight" = some v → ∃ name ∈ weightNames, v = .text name) ∧
      ∀ word ∈ frontWords text, ∃ name ∈ modifierNames, Text.lowerAscii word = name.toList

/-- **No other word stands before the size** of a font that is accepted. -/
theorem FontParts.front_eq {text : String} (x : FontParts (Text.words text.toList)) :
    x.front = frontWords text := by
  have hfront : ∀ w ∈ x.front, !isSizeWord w := by
    intro w hw
    rw [isSizeWord, Option.isNone_eq_false_iff.2 (isSome_ofWord?_iff.2 (x.isModifier_front w hw))]
    rfl
  have hword : (!isSizeWord x.word) = false := by
    have hnone : FontModifier.ofWord? x.word = none :=
      Option.not_isSome_iff_eq_none.1 fun h => x.not_isModifier (isSome_ofWord?_iff.1 h)
    rw [isSizeWord, hnone, x.size_eq]
    rfl
  have hcut := takeWhile_append_cons hfront hword x.rest
  rw [← x.words_eq] at hcut
  exact hcut.symm

/-- The weight of a font is the last one, and what stands before the size is accepted there. -/
theorem weight_of_run {text : String} {t : Style}
    (h : (expandFont (.string text)).run Style.empty = .ok () t) :
    t.get? "fontWeight"
        = ((namesOf (frontWords text)).filter IsWeight).getLast?.map StyleValue.ofText
      ∧ ∀ word ∈ frontWords text, IsModifier (Text.lowerAscii word) := by
  obtain ⟨x, rfl⟩ := expandFont_run_eq_ok_iff.1 h
  rw [← x.front_eq, x.get?_apply]
  exact ⟨Option.or_none, x.isModifier_front⟩

/-- **A font keeps to the names of weights unless a hundred is padded.**  The weight it writes is the
last weight before the size, in lower case and else as it is spelled. -/
theorem writes_canonical_weights_iff (text : String) :
    (WritesCanonicalWeights text ↔
      ∀ t, (expandFont (.string text)).run Style.empty = .ok () t →
        ∀ word ∈ frontWords text, ¬ PaddedHundred word)
    ∧ ∀ t, (expandFont (.string text)).run Style.empty = .ok () t →
        t.get? "fontWeight"
            = ((namesOf (frontWords text)).filter IsWeight).getLast?.map StyleValue.ofText
        ∧ ∀ word ∈ frontWords text, (∃ name ∈ modifierNames, Text.lowerAscii word = name.toList) ∨
          PaddedHundred word := by
  have hname : ∀ {word}, IsModifier (Text.lowerAscii word) →
      (∃ name ∈ modifierNames, Text.lowerAscii word = name.toList) ∨ PaddedHundred word :=
    fun h => h.imp_right paddedHundred_lowerAscii_iff.1
  refine ⟨⟨fun h t ht word hword hpadded => ?_, fun h t ht => ?_⟩, fun t ht => ?_⟩
  · obtain ⟨name, hmem, heq⟩ := (h t ht).2 word hword
    exact (paddedHundred_lowerAscii_iff.2 hpadded).ne_name name hmem heq
  · obtain ⟨hweight, hmodifiers⟩ := weight_of_run ht
    refine ⟨fun v hv => ?_, fun word hword =>
      (hname (hmodifiers word hword)).resolve_right (h t ht word hword)⟩
    rw [hweight] at hv
    obtain ⟨w, hlast, rfl⟩ := Option.map_eq_some_iff.1 hv
    obtain ⟨hmem, hw⟩ := List.mem_filter.1 (List.mem_of_getLast? hlast)
    obtain ⟨word, hword, rfl⟩ := List.mem_map.1 hmem
    obtain ⟨name, hmem, heq⟩ | hpadded := of_decide_eq_true hw
    · exact ⟨name, hmem, by rw [heq, StyleValue.ofText, String.ofList_toList]⟩
    · exact absurd (paddedHundred_lowerAscii_iff.1 hpadded) (h t ht word hword)
  · obtain ⟨hweight, hmodifiers⟩ := weight_of_run ht
    exact ⟨hweight, fun word hword => hname (hmodifiers word hword)⟩

/-- A font that is read with a value for a name is accepted, and writes the value. -/
theorem exists_run_of_lastWrite? {text name : String} {v : StyleValue}
    (h : (fontOfText (Text.trim text.toList)).toOption.bind
      (fun p => Properties.lastWrite? p.writes name) = some v) :
    ∃ t, (expandFont (.string text)).run Style.empty = .ok () t ∧ t.get? name = some v := by
  obtain ⟨p, hp, hv⟩ := Option.bind_eq_some_iff.1 h
  have hread : font (.string text) = .ok p := by
    refine mapError_eq_ok_iff.2 ?_
    dsimp only
    cases hread : fontOfText (Text.trim text.toList) with
    | error e =>
      rw [hread] at hp
      cases hp
    | ok q =>
      rw [hread] at hp
      cases hp
      rfl
  refine ⟨Style.empty.apply p, ?_, ?_⟩
  · rw [expandFont_eq]
    exact StyleWriter.run_ofPatch_eq_ok_iff.2 ⟨p, hread, rfl⟩
  · rw [Style.get?_apply, hv]
    rfl

/-- A weight in capitals is written as its name. -/
theorem writes_canonical_weights_bold : WritesCanonicalWeights "italic BOLD 12px/1.5 Arial"
    ∧ ∃ t, (expandFont (.string "italic BOLD 12px/1.5 Arial")).run Style.empty = .ok () t
        ∧ t.get? "fontWeight" = some (.text "bold") := by
  have hfront : frontWords "italic BOLD 12px/1.5 Arial" = ["italic".toList, "BOLD".toList] := by
    decide +kernel
  have hunpadded : ∀ word ∈ frontWords "italic BOLD 12px/1.5 Arial", ¬ PaddedHundred word := by
    have hnumeric : ∀ word ∈ ["italic".toList, "BOLD".toList], ¬ isNumericWeight word := by decide
    rw [hfront]
    exact fun word hword hpadded => hnumeric word hword (isNumericWeight_iff.2 (.inr hpadded))
  obtain ⟨hcanonical, hweight⟩ := writes_canonical_weights_iff "italic BOLD 12px/1.5 Arial"
  obtain ⟨t, ht, -⟩ : ∃ t, (expandFont (.string "italic BOLD 12px/1.5 Arial")).run Style.empty
      = .ok () t ∧ t.get? "fontFamily" = some (.text "Arial") :=
    exists_run_of_lastWrite? (by decide +kernel)
  refine ⟨hcanonical.2 fun _ _ => hunpadded, t, ht, (hweight t ht).1.trans ?_⟩
  rw [hfront]
  decide +kernel

/-- **A plus sign before a hundred** is written with it. -/
theorem not_writes_canonical_weights_plus : ¬ WritesCanonicalWeights "+400 12px Arial" := by
  intro hcanonical
  obtain ⟨t, ht, hweight⟩ : ∃ t, (expandFont (.string "+400 12px Arial")).run Style.empty = .ok () t
      ∧ t.get? "fontWeight" = some (.text "+400") :=
    exists_run_of_lastWrite? (by decide +kernel)
  obtain ⟨name, hmem, heq⟩ := (hcanonical t ht).1 _ hweight
  rw [← StyleValue.text.inj heq] at hmem
  exact absurd hmem (by decide)

end ScreenLayout.Shorthand
