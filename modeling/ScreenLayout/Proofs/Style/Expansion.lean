import ScreenLayout.Style.Writer

/-!
# Proofs/Style/Expansion — shorthands written in place

Written in place, a shorthand reads its value token by token or word by word and puts one property
after the other.  It comes to its patch: each loop gathers what the patch lists, every refusal comes
before the first write, and the writes are those of the patch in their order.

* `StyleWriter.ofPatch` — a patch written at once, or its refusal.
* `Shorthand.expandBox_eq`, `Shorthand.expandBorder_eq`, `Shorthand.expandFont_eq`,
  `Shorthand.expandBoxShadow_eq` — each shorthand comes to its patch; `Expander.expand_eq` — all do.
-/

namespace ScreenLayout

namespace StyleWriter

/-! ## Runs of writes -/

/-- Several properties written in their order. -/
def putAll (writes : List (String × StyleValue)) : StyleWriter Unit := modify (·.apply { writes })

/-- **A patch written at once**, or its refusal. -/
def ofPatch : Except StyleError StylePatch → StyleWriter Unit
  | .ok p => modify (·.apply p)
  | .error e => throw e

/-- **A patch is accepted for every style** it may be written to, or for none. -/
theorem run_ofPatch_eq_ok_iff {r : Except StyleError StylePatch} {s t : Style} :
    (ofPatch r).run s = .ok () t ↔ ∃ p, r = .ok p ∧ t = s.apply p := by
  cases r with
  | error e =>
    constructor
    · intro h
      cases h
    · rintro ⟨p, hp, -⟩
      cases hp
  | ok p =>
    constructor
    · intro h
      cases h
      exact ⟨p, rfl, rfl⟩
    · rintro ⟨p', hp, rfl⟩
      cases hp
      rfl

theorem put_eq_putAll (name : String) (v : StyleValue) : put name v = putAll [(name, v)] := rfl

theorem putIf_eq_putAll (name : String) (v : Option StyleValue) :
    putIf name v = putAll (v.toList.map (name, ·)) := by
  cases v <;> rfl

theorem putIf_map_eq_putAll {α : Type} (name : String) (a : Option α) (f : α → StyleValue) :
    putIf name (a.map f) = putAll (a.toList.map fun a => (name, f a)) := by
  cases a <;> rfl

/-- **Writes one after the other are one run of writes.** -/
theorem putAll_bind (front back : List (String × StyleValue)) :
    (do putAll front; putAll back) = putAll (front ++ back) := by
  refine funext fun s => ?_
  have hstep : (s.apply { writes := front }).apply { writes := back }
      = s.apply { writes := front ++ back } := by
    refine congrArg (Style.mk · s.gradient) ?_
    exact List.foldl_append.symm
  exact congrArg (EStateM.Result.ok ()) hstep

theorem ite_putAll (b : Prop) [Decidable b] (writes : List (String × StyleValue)) :
    (if b then putAll writes else pure ()) = putAll (if b then writes else []) := by
  by_cases h : b
  · rw [if_pos h, if_pos h]
  · rw [if_neg h, if_neg h]
    rfl

end StyleWriter

namespace Shorthand

open StyleWriter

/-! ## Boxes -/

/-- **Words are read up to the first that is no length.** -/
theorem readLengths_eq (name : String) (words : List (List Char)) :
    readLengths name words = match words.find? fun w => (StyleValue.lengthPart? w).isNone with
      | some word => throw (.invalidValue name (.badLength (String.ofList word)))
      | none => pure (words.filterMap StyleValue.lengthPart?) := by
  induction words with
  | nil => rfl
  | cons word words ih =>
    rw [readLengths, ih]
    cases hword : StyleValue.lengthPart? word with
    | none => rw [List.find?_cons_of_pos (by rw [hword]; rfl)]
    | some length =>
      rw [List.find?_cons_of_neg (by rw [hword]; exact Bool.false_ne_true),
        List.filterMap_cons_some hword]
      cases words.find? fun w => (StyleValue.lengthPart? w).isNone <;> rfl

theorem expandBox_eq (name : String) (v : Json) : expandBox name v = ofPatch (box name v) := by
  cases v with
  | string s =>
    rw [expandBox, box, readLengths_eq, boxOfText]
    cases (Text.words s.toList).find? fun w => (StyleValue.lengthPart? w).isNone with
    | some word => rfl
    | none =>
      dsimp only
      generalize (Text.words s.toList).filterMap StyleValue.lengthPart? = lengths
      -- none, one to four, or more
      rcases lengths with _ | ⟨a, _ | ⟨b, _ | ⟨c, _ | ⟨d, _ | ⟨e, lengths⟩⟩⟩⟩⟩ <;> rfl
  | _ => rfl

/-! ## Borders -/

/-- The last that is found comes from the rest, else from the head. -/
theorem getLast?_filterMap_cons {α β : Type} (f : α → Option β) (a : α) (l : List α) :
    ((a :: l).filterMap f).getLast? = (l.filterMap f).getLast?.or (f a) := by
  cases ha : f a with
  | none => rw [List.filterMap_cons_none ha, Option.or_none]
  | some b =>
    rw [List.filterMap_cons_some ha, List.getLast?_cons]
    cases (l.filterMap f).getLast? <;> rfl

/-- No line style is the name of a colour. -/
theorem lineStyle?_of_isColor {t : Token} (h : t.isColor) : lineStyle? t = none := by
  have hnames : ∀ word ∈ lineStyles, Token.colorNames.contains word = false := by decide
  unfold lineStyle?
  refine if_neg fun ⟨hident, hline⟩ => ?_
  rw [Token.isColor, hident] at h
  dsimp only at h
  rw [hnames _ (List.contains_iff_mem.1 hline)] at h
  cases h

/-- No length is a colour. -/
theorem color?_of_isLength {t : Token} (h : t.kind = .dimension ∨ t.kind = .number) :
    t.color? = none := by
  unfold Token.color? Token.isColor
  obtain h | h := h <;> rw [h] <;> rfl

/-- **A token is a part of one kind**: a width, a colour or a line style. -/
theorem BorderParts.read_eq (p : BorderParts) (t : Token) : p.read t
    = ⟨t.length?.or p.width, t.color?.or p.color, (lineStyle? t).or p.line⟩ := by
  unfold read
  by_cases hlength : t.kind = .dimension ∨ t.kind = .number
  · have hline : lineStyle? t = none := by
      unfold lineStyle?
      refine if_neg fun ⟨hident, _⟩ => ?_
      rw [hident] at hlength
      obtain h | h := hlength <;> cases h
    rw [if_pos hlength, color?_of_isLength hlength, hline]
    rfl
  · have hnone : t.length? = none := if_neg hlength
    rw [if_neg hlength, hnone, Option.none_or]
    by_cases hcolor : t.isColor
    · rw [if_pos hcolor, Token.color?, if_pos hcolor, lineStyle?_of_isColor hcolor]
      rfl
    · rw [if_neg hcolor, Token.color?, if_neg hcolor]
      rfl

/-- **Tokens read one by one** give the last part of each kind. -/
theorem foldl_borderRead (p : BorderParts) (tokens : List Token) :
    tokens.foldl BorderParts.read p = ⟨(BorderParts.ofTokens tokens).width.or p.width,
      (BorderParts.ofTokens tokens).color.or p.color,
      (BorderParts.ofTokens tokens).line.or p.line⟩ := by
  induction tokens generalizing p with
  | nil => rfl
  | cons t tokens ih =>
    rw [List.foldl_cons, ih, BorderParts.read_eq]
    simp only [BorderParts.ofTokens, getLast?_filterMap_cons, Option.or_assoc]

theorem expandBorder_eq (property side : String) (v : Json) :
    expandBorder property side v = ofPatch (border property side v) := by
  cases v with
  | string s =>
    rw [expandBorder, border, borderOfText, foldl_borderRead]
    simp only [Option.or_none]
    by_cases hnone : Text.sameAscii (Text.trim s.toList) "none".toList
    · rw [if_pos hnone, if_pos hnone]
      rfl
    · rw [if_neg hnone, if_neg hnone]
      generalize BorderParts.ofTokens (Token.scan (Text.trim s.toList)) = parts
      by_cases hempty : parts.isEmpty
      · rw [if_pos hempty, if_pos hempty]
        rfl
      · rw [if_neg hempty, if_neg hempty]
        simp only [putIf_map_eq_putAll, ite_putAll, putAll_bind]
        rw [← List.append_assoc]
        rfl
  | _ => rfl

/-! ## Fonts -/

/-- **Modifiers read one by one** give the style if one is italic, all small capitals and the last
weight. -/
theorem foldl_faceRead (f : FontFace) (modifiers : List FontModifier) :
    modifiers.foldl FontFace.read f =
      ⟨if modifiers.contains .italic then some "italic" else f.style,
      f.variants ++ List.replicate (modifiers.count .smallCaps) "small-caps",
      (modifiers.filterMap FontModifier.weight?).getLast?.or f.weight⟩ := by
  induction modifiers generalizing f with
  | nil => simp
  | cons modifier modifiers ih =>
    rw [List.foldl_cons, ih, getLast?_filterMap_cons, Option.or_assoc]
    cases modifier with
    | normal => simp [FontFace.read, FontModifier.weight?]
    | italic => simp [FontFace.read, FontModifier.weight?]
    | smallCaps => simp [FontFace.read, FontModifier.weight?, List.replicate_succ]
    | weight word => simp [FontFace.read, FontModifier.weight?]

/-- The modifiers write what they come to. -/
theorem modifierWrites_eq (modifiers : List FontModifier) : modifierWrites modifiers
    = ((if modifiers.contains .italic then some "italic" else none).toList.map fun style =>
        ("fontStyle", StyleValue.text style))
      ++ ((if (List.replicate (modifiers.count .smallCaps) "small-caps").isEmpty then none
        else some (StyleValue.list
          (List.replicate (modifiers.count .smallCaps) "small-caps"))).toList.map ("fontVariant", ·))
      ++ ((modifiers.filterMap FontModifier.weight?).getLast?.toList.map fun w =>
        ("fontWeight", StyleValue.ofText w)) := by
  have hempty : (List.replicate (modifiers.count .smallCaps) "small-caps").isEmpty
      = !modifiers.contains .smallCaps := by
    by_cases hmem : FontModifier.smallCaps ∈ modifiers
    · rw [List.contains_iff_mem.2 hmem, List.isEmpty_replicate]
      exact beq_eq_false_iff_ne.2 (Nat.ne_of_gt (List.count_pos_iff.2 hmem))
    · rw [List.count_eq_zero.2 hmem, Bool.eq_false_iff.2 fun h => hmem (List.contains_iff_mem.1 h)]
      rfl
  rw [modifierWrites, hempty]
  cases modifiers.contains .italic <;> cases modifiers.contains .smallCaps <;> rfl

/-- **Words are read up to the first that is no modifier.** -/
theorem readFace_eq (cs : List Char) (f : FontFace) (words : List (List Char)) :
    readFace cs f words = match words.dropWhile fun w => (FontModifier.ofWord? w).isSome with
      | [] => throw (.invalidValue "font" (.noFontSize (String.ofList cs)))
      | word :: rest => pure (((words.takeWhile fun w => (FontModifier.ofWord? w).isSome).filterMap
          FontModifier.ofWord?).foldl FontFace.read f, word, rest) := by
  induction words generalizing f with
  | nil => rfl
  | cons word words ih =>
    rw [readFace]
    cases hword : FontModifier.ofWord? word with
    | none =>
      rw [List.dropWhile_cons_of_neg (by rw [hword]; exact Bool.false_ne_true),
        List.takeWhile_cons_of_neg (by rw [hword]; exact Bool.false_ne_true)]
      rfl
    | some modifier =>
      rw [List.dropWhile_cons_of_pos (by rw [hword]; rfl),
        List.takeWhile_cons_of_pos (by rw [hword]; rfl), List.filterMap_cons_some hword]
      exact ih (f.read modifier)

theorem expandFont_eq (v : Json) : expandFont v = ofPatch (font v) := by
  cases v with
  | string s =>
    rw [expandFont, font, fontOfText, readFace_eq]
    dsimp only
    generalize ((Text.words (Text.trim s.toList)).takeWhile fun w =>
      (FontModifier.ofWord? w).isSome).filterMap FontModifier.ofWord? = modifiers
    cases (Text.words (Text.trim s.toList)).dropWhile fun w => (FontModifier.ofWord? w).isSome with
    | nil => rfl
    | cons word rest =>
      dsimp only
      rw [pure_bind, foldl_faceRead, readSize]
      cases FontSize.ofWord word with
      | error e => rfl
      | ok size =>
        dsimp only
        rw [pure_bind]
        cases firstFamily? (Text.joined [' '] rest) with
        | none => rfl
        | some family =>
          dsimp only
          rw [List.nil_append, Option.or_none, modifierWrites_eq, putIf_eq_putAll "fontVariant"]
          simp only [put_eq_putAll, putIf_map_eq_putAll, putAll_bind]
          simp only [List.append_assoc]
          rfl
  | _ => rfl

/-! ## Shadows -/

/-- **A token is a length or a colour**; a colour counts if there is none yet. -/
theorem ShadowParts.read_eq (p : ShadowParts) (t : Token) :
    p.read t = ⟨p.lengths ++ t.length?.toList, p.color.or t.color?⟩ := by
  unfold read
  by_cases hlength : t.kind = .dimension ∨ t.kind = .number
  · rw [if_pos hlength, color?_of_isLength hlength, Option.or_none]
  · have hnone : t.length? = none := if_neg hlength
    rw [if_neg hlength, hnone, Option.toList_none, List.append_nil]
    obtain ⟨lengths, _ | color⟩ := p
    · by_cases hcolor : t.isColor
      · rw [Token.color?, if_pos hcolor, hcolor]
        rfl
      · rw [Token.color?, if_neg hcolor, Bool.eq_false_iff.2 hcolor]
        rfl
    · rfl

/-- **Tokens read one by one** give all lengths and the first colour. -/
theorem foldl_shadowRead (p : ShadowParts) (tokens : List Token) :
    tokens.foldl ShadowParts.read p = ⟨p.lengths ++ tokens.filterMap Token.length?,
      p.color.or (tokens.findSome? Token.color?)⟩ := by
  induction tokens generalizing p with
  | nil => rw [List.filterMap_nil, List.append_nil, List.findSome?_nil, Option.or_none]; rfl
  | cons t tokens ih =>
    rw [List.foldl_cons, ih, ShadowParts.read_eq, Option.or_assoc, List.append_assoc]
    congr 1
    · cases h : t.length? with
      | none => rw [List.filterMap_cons_none h]; rfl
      | some x => rw [List.filterMap_cons_some h]; rfl
    · rw [List.findSome?_cons]
      cases t.color? <;> rfl

theorem expandBoxShadow_eq (c : Config) (v : Json) :
    expandBoxShadow c v = ofPatch (boxShadow c v) := by
  cases v with
  | string s =>
    rw [expandBoxShadow, boxShadow, shadowOfText, foldl_shadowRead]
    dsimp only
    rw [List.nil_append, Option.none_or]
    by_cases hnone : Text.sameAscii (Text.trim s.toList) "none".toList
    · rw [if_pos hnone, if_pos hnone]
      rfl
    · rw [if_neg hnone, if_neg hnone]
      rcases (Token.scan (Text.trim s.toList)).filterMap Token.length? with _ | ⟨x, _ | ⟨y, rest⟩⟩
      · rfl
      · rfl
      · simp only [put_eq_putAll, putIf_map_eq_putAll, putAll_bind]
        rfl
  | _ => rfl

end Shorthand

namespace Expander

open StyleWriter

/-! ## All shorthands -/

/-- The patch of a shorthand. -/
def patch : Expander → Json → Except StyleError StylePatch
  | box name => Shorthand.box name
  | border property side => Shorthand.border property side
  | font => Shorthand.font
  | boxShadow c => Shorthand.boxShadow c

/-- **A shorthand comes to its patch.** -/
theorem expand_eq (x : Expander) (v : Json) : x.expand v = ofPatch (x.patch v) := by
  cases x with
  | box name => exact Shorthand.expandBox_eq name v
  | border property side => exact Shorthand.expandBorder_eq property side v
  | font => exact Shorthand.expandFont_eq v
  | boxShadow c => exact Shorthand.expandBoxShadow_eq c v

end Expander

end ScreenLayout
