import ScreenLayout.Proofs.Style.GradientOpening
import ScreenLayout.Proofs.Style.GradientParts
import ScreenLayout.Proofs.Style.GradientStop

/-!
# Proofs/Style/GradientText — gradients written and read

A gradient may be written with an angle, stops and bare hints between them.  Reading such a text gives
the angle and the colours of the stops, so long as each colour is one text to the reader: nested,
trimmed, and no dimension itself or in its last word.  The colours that reading gives are such, and so
a gradient that was read is read again from its own text.

* `Gradient.IsColor` — the texts that stand for themselves as colours.
* `Gradient.stopColor?_text` — the colour of a stop, whatever positions follow it.
* `Gradient.isColor_of_stopColor?` — every colour read is such a text.
* `Gradient.parse?_text` — a written gradient is read.
* `Gradient.length_lt_of_mem_colors` — a colour is shorter than the text it was read from.
* `Gradient.parse?_undoes_writing` — that, and a gradient read again from its own text.
-/

namespace ScreenLayout

namespace Gradient

/-! ## Texts of gradients -/

/-- **A colour that reading leaves as it is.** -/
structure IsColor (color : List Char) : Prop where
  trimmed : Text.trim color = color
  ne_nil : color ≠ []
  nested : NestedFrom 0 color
  not_dimension : Dimension.parse? color = none
  last_word : ∀ word, (Text.words color).getLast? = some word → Dimension.parse? word = none

/-- **A part of a written gradient**: a bare hint, or a colour with positions after it. -/
inductive Part where
  | hint (text : List Char)
  | stop (color : List Char) (positions : List (List Char))

namespace Part

/-- Positions as they stand after a colour. -/
def positionsText (positions : List (List Char)) : List Char := positions.flatMap (' ' :: ·)

/-- The text of a part. -/
def text : Part → List Char
  | hint text => text
  | stop color positions => color ++ positionsText positions

def color? : Part → Option (List Char)
  | hint _ => none
  | stop color _ => some color

/-- A hint is a dimension, and a stop a colour with positions. -/
def Valid : Part → Prop
  | hint text => (Dimension.parse? text).isSome
  | stop color positions => IsColor color ∧ ∀ position ∈ positions, IsPosition position

end Part

/-- **The angle at the front of some parts**: the one written there, or the default when the first
part is no angle. -/
def AngleOf (parts : List Part) (angle : FiniteDouble) : (written : Option (List Char)) → Prop
  | some t => parseAngle? t = some angle
  | none => angle = defaultAngle ∧ ∀ part ∈ parts.head?, parseAngle? part.text = none

/-- A gradient as it may be written, up to the parenthesis that closes it. -/
def written (angle : Option (List Char)) (parts : List Part) : List Char :=
  opening ++ Text.joined ", ".toList (angle.toList ++ parts.map Part.text)

variable {cs : List Char}

/-! ## Angles -/

theorem parseAngle?_trim (cs : List Char) : parseAngle? (Text.trim cs) = parseAngle? cs := by
  rw [parseAngle?, Text.trim_trim]
  rfl

/-- The words for directions. -/
def directionWords : List String :=
  ["top", "right", "bottom", "left", "top right", "right top", "bottom right", "right bottom",
   "bottom left", "left bottom", "top left", "left top"]

theorem mem_directionWords {angle : FiniteDouble} (h : directionAngle? cs = some angle) :
    String.ofList cs ∈ directionWords := by
  refine Decidable.of_not_not fun hnot => ?_
  simp only [directionWords, List.mem_cons, List.not_mem_nil, or_false, not_or] at hnot
  simp [directionAngle?, hnot] at h

/-- **An angle is flat.** -/
theorem flat_of_parseAngle? {angle : FiniteDouble} (h : parseAngle? cs = some angle) : Flat cs := by
  refine flat_trim (flat_of_lowerAscii ?_)
  unfold parseAngle? at h
  split at h
  · rename_i direction hlower
    have hwords : ∀ word ∈ directionWords, word.toList.all (!marks.contains ·) := by decide
    have hword : Flat (Text.trim direction) := by
      have hfree := hwords _ (mem_directionWords h)
      rw [String.toList_ofList] at hfree
      exact fun c hc hmark => Text.not_mem_of_all hfree (List.contains_iff_mem.2 hmark) hc
    rw [hlower, flat_cons, flat_cons, flat_cons]
    exact ⟨by decide, by decide, by decide, flat_trim hword⟩
  · obtain ⟨d, hd, -⟩ := Option.bind_eq_some_iff.1 h
    exact flat_of_parseDimension? hd

theorem trim_ne_nil_of_parseAngle? {angle : FiniteDouble} (h : parseAngle? cs = some angle) :
    Text.trim cs ≠ [] := by
  intro hnil
  have hblank : parseAngle? [] = none := by decide
  rw [← parseAngle?_trim, hnil, hblank] at h
  cases h

/-! ## Stops and hints -/

section Stops

variable {color : List Char} {positions : List (List Char)}

theorem positionsText_append_singleton (positions : List (List Char)) (position : List Char) :
    Part.positionsText (positions ++ [position]) = Part.positionsText positions ++ ' ' :: position := by
  simp [Part.positionsText]

/-- A stop is trimmed. -/
theorem trim_stop (hcolor : IsColor color) (h : ∀ position ∈ positions, IsPosition position) :
    Text.trim (color ++ Part.positionsText positions) = color ++ Part.positionsText positions := by
  refine Text.trim_eq_self_iff.2 ⟨fun c hc => ?_, Text.trimEnd_eq_self_iff.1 ?_⟩
  · rw [List.head?_append_of_ne_nil _ hcolor.ne_nil] at hc
    exact (Text.trim_eq_self_iff.1 hcolor.trimmed).1 c hc
  · rcases List.eq_nil_or_concat' positions with rfl | ⟨front, position, rfl⟩
    · rw [Part.positionsText, List.flatMap_nil, List.append_nil]
      exact Text.trimEnd_of_trim hcolor.trimmed
    · have hposition := h position List.mem_concat_self
      rw [positionsText_append_singleton, List.append_cons, ← List.append_assoc]
      exact Text.trimEnd_append_of_free _ hposition.ne_nil hposition.free

theorem arePositions_positionsText (h : ∀ position ∈ positions, IsPosition position) :
    ArePositions (Part.positionsText positions) := by
  induction positions using List.reverseRecOn with
  | nil => exact .none
  | append_singleton front position ih =>
    obtain ⟨hfront, hlast⟩ := List.forall_mem_append.1 h
    rw [positionsText_append_singleton]
    exact (ih hfront).concat (List.cons_ne_nil ' ' []) (List.forall_mem_singleton.2 (by decide))
      (hlast position (List.mem_singleton_self position))

/-- **Positions after a colour are dropped.** -/
theorem stopColor?_stop (hcolor : IsColor color) (h : ∀ position ∈ positions, IsPosition position) :
    stopColor? (color ++ Part.positionsText positions) = some color := by
  refine stopColor?_eq_some_iff.2 ⟨hcolor.ne_nil, hcolor.trimmed, hcolor.not_dimension, ?_,
    Part.positionsText positions, trim_stop hcolor h, arePositions_positionsText h⟩
  exact exists_last_word hcolor.trimmed hcolor.ne_nil hcolor.not_dimension
    (not_dropsLast_of_last_word hcolor.trimmed hcolor.last_word)

end Stops

/-- **A bare hint has no colour.** -/
theorem stopColor?_hint (h : (Dimension.parse? cs).isSome) : stopColor? cs = none := by
  rw [← Dimension.parse?_trim] at h
  exact stopColor?_eq_none_iff.2 (.inr ⟨_, [], (List.append_nil _).symm, h, .none⟩)

/-- **The colour of a written part.** -/
theorem stopColor?_text {part : Part} (h : part.Valid) : stopColor? part.text = part.color? := by
  cases part with
  | hint text => exact stopColor?_hint h
  | stop color positions => exact stopColor?_stop h.1 h.2

theorem trim_ne_nil_of_parse? (h : (Dimension.parse? cs).isSome) : Text.trim cs ≠ [] := by
  intro hnil
  rw [← Dimension.parse?_trim, hnil] at h
  exact absurd h (by decide)

/-- **The text of a part is nested**, and not blank. -/
theorem nested_text {part : Part} (h : part.Valid) :
    NestedFrom 0 part.text ∧ Text.trim part.text ≠ [] := by
  cases part with
  | hint text =>
    obtain ⟨d, hd⟩ := Option.isSome_iff_exists.1 h
    exact ⟨.of_flat (flat_of_parseDimension? hd), trim_ne_nil_of_parse? h⟩
  | stop color positions =>
    obtain ⟨hcolor, hpositions⟩ := h
    have hflat : Flat (Part.positionsText positions) := by
      intro c hc
      obtain ⟨position, hposition, hc⟩ := List.mem_flatMap.1 hc
      obtain ⟨d, hd⟩ := Option.isSome_iff_exists.1 (hpositions position hposition).dimension
      have hspaced : Flat (' ' :: position) := flat_cons.2 ⟨by decide, flat_of_parseDimension? hd⟩
      exact hspaced c hc
    refine ⟨(nestedFrom_append_flat hflat).2 hcolor.nested, ?_⟩
    rw [Part.text, trim_stop hcolor hpositions]
    exact List.append_ne_nil_of_left_ne_nil hcolor.ne_nil _

/-! ## Written gradients are read -/

theorem ofStops?_text {parts : List Part} (hparts : ∀ part ∈ parts, part.Valid)
    (hstop : ∃ part ∈ parts, part.color?.isSome) (angle : FiniteDouble) :
    ofStops? angle ((parts.map Part.text).map Text.trim)
      = some ⟨(parts.filterMap Part.color?).map String.ofList, angle⟩ := by
  have htrim : ∀ cs, stopColor? (Text.trim cs) = stopColor? cs := fun cs => by
    rw [stopColor?, Text.trim_trim]
    rfl
  have hcolors : ((parts.map Part.text).map Text.trim).filterMap stopColor?
      = parts.filterMap Part.color? := by
    rw [List.map_map, List.filterMap_map]
    refine List.filterMap_congr fun part hpart => ?_
    exact (htrim part.text).trans (stopColor?_text (hparts part hpart))
  have hne : (parts.filterMap Part.color?).isEmpty = false := by
    obtain ⟨part, hpart, hcolor⟩ := hstop
    obtain ⟨color, hcolor⟩ := Option.isSome_iff_exists.1 hcolor
    exact List.isEmpty_eq_false_iff.2 (List.ne_nil_of_mem (List.mem_filterMap.2 ⟨part, hpart, hcolor⟩))
  rw [ofStops?, hcolors, hne]
  rfl

/-- **A written gradient is read**: its angle, and the colours of its stops in order. -/
theorem parse?_text {written? : Option (List Char)} {angle : FiniteDouble} {parts : List Part}
    (hangle : AngleOf parts angle written?) (hparts : ∀ part ∈ parts, part.Valid)
    (hstop : ∃ part ∈ parts, part.color?.isSome) (suffix : List Char) :
    parse? (written written? parts ++ ')' :: suffix)
      = some ⟨(parts.filterMap Part.color?).map String.ofList, angle⟩ := by
  have hpieces : ∀ piece ∈ written?.toList ++ parts.map Part.text,
      NestedFrom 0 piece ∧ Text.trim piece ≠ [] := by
    refine List.forall_mem_append.2 ⟨fun t ht => ?_, ?_⟩
    · obtain rfl := Option.mem_toList.1 ht
      exact ⟨.of_flat (flat_of_parseAngle? hangle), trim_ne_nil_of_parseAngle? hangle⟩
    · exact List.forall_mem_map.2 fun part hpart => nested_text (hparts part hpart)
  have hne : written?.toList ++ parts.map Part.text ≠ [] := by
    obtain ⟨part, hpart, -⟩ := hstop
    exact List.append_ne_nil_of_right_ne_nil _ (List.ne_nil_of_mem (List.mem_map_of_mem hpart))
  have hbalanced := depthAfter_joined fun piece hpiece => (hpieces piece hpiece).1.balanced
  rw [parse?, written, List.append_assoc, afterOpening?_append (beq_self_eq_true _), Option.bind_some,
    balancedBody?_append hbalanced, Option.bind_some, topLevelParts_joined hne hpieces]
  cases written? with
  | some t =>
    have hread : parseAngle? (Text.trim t) = some angle := by rw [parseAngle?_trim, hangle]
    rw [Option.toList_some, List.singleton_append, List.map_cons, ofParts?, hread]
    exact ofStops?_text hparts hstop angle
  | none =>
    obtain ⟨rfl, hfirst⟩ := hangle
    rw [Option.toList_none, List.nil_append]
    rcases parts with _ | ⟨part, parts⟩
    · obtain ⟨part, hpart, -⟩ := hstop
      cases hpart
    · have hnone : parseAngle? (Text.trim part.text) = none := by
        rw [parseAngle?_trim, hfirst part rfl]
      have hstops := ofStops?_text hparts hstop defaultAngle
      rw [List.map_cons, List.map_cons] at hstops ⊢
      rw [ofParts?, hnone]
      exact hstops

/-! ## Read gradients are written -/

/-- Positions are flat. -/
theorem ArePositions.flat {removed : List Char} (h : ArePositions removed) : Flat removed := by
  induction h with
  | none => exact flat_nil
  | concat _ _ blank last ih =>
    obtain ⟨d, hd⟩ := Option.isSome_iff_exists.1 last.dimension
    exact flat_append.2 ⟨ih, flat_append.2 ⟨flat_of_isBlank blank, flat_of_parseDimension? hd⟩⟩

/-- **Every colour read is a colour that reading leaves as it is.** -/
theorem isColor_of_stopColor? {color : List Char} (hnested : NestedFrom 0 cs)
    (h : stopColor? cs = some color) : IsColor color := by
  obtain ⟨hne, htrim, hdimension, ⟨word, hword, hlast⟩, removed, hcs, hremoved⟩ :=
    stopColor?_eq_some_iff.1 h
  have hwhole : NestedFrom 0 (color ++ removed) := hcs ▸ nestedFrom_trim.2 hnested
  refine ⟨htrim, hne, (nestedFrom_append_flat hremoved.flat).1 hwhole, hdimension,
    fun other hother => ?_⟩
  rwa [← Option.some.inj (hword.symm.trans hother)]

/-- What is read has a finite angle, and colours, each of which was read from a part of the body. -/
theorem exists_of_ofParts? {parts : List (List Char)} {g : Gradient} (h : ofParts? parts = some g) :
    ∃ (angle : FiniteDouble) (colors : List (List Char)), g = ⟨colors.map String.ofList, angle⟩ ∧
      colors ≠ [] ∧ ∀ color ∈ colors, ∃ part ∈ parts, stopColor? part = some color := by
  have hstops : ∀ {angle : FiniteDouble} {stops : List (List Char)}, stops ⊆ parts →
      ofStops? angle stops = some g →
      ∃ (angle : FiniteDouble) (colors : List (List Char)), g = ⟨colors.map String.ofList, angle⟩ ∧
        colors ≠ [] ∧ ∀ color ∈ colors, ∃ part ∈ parts, stopColor? part = some color := by
    intro angle stops hsub hread
    obtain ⟨hempty, hread⟩ := Option.ite_none_left_eq_some.1 hread
    refine ⟨angle, stops.filterMap stopColor?, (Option.some.inj hread).symm,
      fun hnil => hempty (List.isEmpty_iff.2 hnil), fun color hcolor => ?_⟩
    obtain ⟨part, hpart, hcolor⟩ := List.mem_filterMap.1 hcolor
    exact ⟨part, hsub hpart, hcolor⟩
  rcases parts with _ | ⟨part, parts⟩
  · cases h
  · rw [ofParts?] at h
    split at h
    · exact hstops (List.subset_cons_self part parts) h
    · exact hstops (List.Subset.refl _) h

/-- **What reading a gradient gives**: a finite angle, and colours that reading leaves as they are. -/
theorem exists_of_parse? {g : Gradient} (h : parse? cs = some g) :
    ∃ (angle : FiniteDouble) (colors : List (List Char)), g = ⟨colors.map String.ofList, angle⟩ ∧
      colors ≠ [] ∧ ∀ color ∈ colors, IsColor color := by
  obtain ⟨body, hbody, hparts⟩ := Option.bind_eq_some_iff.1 h
  obtain ⟨rest, -, hbody⟩ := Option.bind_eq_some_iff.1 hbody
  obtain ⟨angle, colors, hg, hne, hcolors⟩ := exists_of_ofParts? hparts
  refine ⟨angle, colors, hg, hne, fun color hcolor => ?_⟩
  obtain ⟨part, hpart, hread⟩ := hcolors color hcolor
  have hnested := (nested_of_mem_topLevelParts (depthAfter_of_bodyWithin? hbody) hpart).1
  exact isColor_of_stopColor? hnested hread

/-! ## What is read is shorter -/

theorem length_lt_of_afterOpening? {rest : List Char} (h : afterOpening? cs = some rest) :
    rest.length < cs.length := by
  obtain ⟨front, spelled, hfirst⟩ := afterOpening?_eq_some_iff.1 h
  have hopening : opening.length = 16 := rfl
  rw [hfirst.text, List.length_append, List.length_append, length_of_sameAscii_opening hfirst.opens]
  omega

theorem length_le_of_bodyWithin? {depth : Nat} {body : List Char}
    (h : bodyWithin? depth cs = some body) : body.length ≤ cs.length :=
  ((List.prefix_append body [')']).trans (prefix_of_bodyWithin? h)).length_le

theorem length_le_of_mem_piecesWithin {depth : Nat} {piece : List Char}
    (h : piece ∈ piecesWithin depth cs) : piece.length ≤ cs.length := by
  induction cs generalizing depth piece with
  | nil => rw [List.mem_singleton.1 h]
  | cons c cs ih =>
    rw [piecesWithin] at h
    split at h
    · rcases List.mem_cons.1 h with rfl | h
      · exact Nat.zero_le _
      · exact Nat.le_succ_of_le (ih h)
    · dsimp only at h
      split at h
      · rw [List.mem_singleton.1 h]
        exact Nat.succ_le_succ (Nat.zero_le _)
      · rename_i first pieces hpieces
        rcases List.mem_cons.1 h with rfl | h
        · exact Nat.succ_le_succ (ih (hpieces ▸ List.mem_cons_self))
        · exact Nat.le_succ_of_le (ih (hpieces ▸ List.mem_cons_of_mem _ h))

/-- **A colour that was read is shorter** than the text it was read from. -/
theorem length_lt_of_mem_colors {g : Gradient} (h : parse? cs = some g) {color : String}
    (hcolor : color ∈ g.colors) : color.toList.length < cs.length := by
  obtain ⟨body, hbody, hparts⟩ := Option.bind_eq_some_iff.1 h
  obtain ⟨rest, hrest, hbody⟩ := Option.bind_eq_some_iff.1 hbody
  obtain ⟨angle, colors, rfl, -, hcolors⟩ := exists_of_ofParts? hparts
  obtain ⟨color, hmem, rfl⟩ := List.mem_map.1 hcolor
  obtain ⟨part, hpart, hread⟩ := hcolors color hmem
  obtain ⟨piece, hpiece, rfl⟩ := List.mem_map.1 (List.mem_filter.1 hpart).1
  obtain ⟨-, -, -, -, removed, htext, -⟩ := stopColor?_eq_some_iff.1 hread
  rw [Text.trim_trim] at htext
  rw [String.toList_ofList]
  calc color.length
      ≤ (color ++ removed).length := (List.prefix_append color removed).length_le
    _ = (Text.trim piece).length := by rw [htext]
    _ ≤ piece.length := Text.length_trim_le piece
    _ ≤ body.length := length_le_of_mem_piecesWithin hpiece
    _ ≤ rest.length := length_le_of_bodyWithin? hbody
    _ < cs.length := length_lt_of_afterOpening? hrest

/-! ## Writing and reading -/

/-- A written angle is read, up to the sign of zero. -/
theorem exists_parseAngle?_plain (x : FiniteDouble) :
    ∃ y, parseAngle? (x.plain ++ LengthUnit.deg.suffix) = some y ∧ y.signed = x.signed := by
  obtain ⟨y, hread, hsigned⟩ := Dimension.exists_parse?_plain_suffix x .deg
  have hfree := Dimension.isBlank_of_mem_plain_suffix x .deg
  have hlower : Text.lowerAscii (Text.trim (x.plain ++ LengthUnit.deg.suffix))
      = x.plain ++ LengthUnit.deg.suffix := by
    have hsuffix : LengthUnit.deg.suffix.map Char.toLower = LengthUnit.deg.suffix := by decide
    have hplain : x.plain.map Char.toLower = x.plain := Dimension.lowerAscii_plain x
    rw [Text.trim_of_free hfree, Text.lowerAscii, List.map_append, hplain, hsuffix]
  refine ⟨y, ?_, hsigned⟩
  rw [parseAngle?, hlower]
  split
  · rename_i direction hdirection
    have hspace := hfree ' ' (by rw [hdirection]; simp)
    cases hspace
  · rw [hread]
    rfl

theorem render_eq_written {colors : List (List Char)} (hne : colors ≠ []) (x : FiniteDouble) :
    render ⟨colors.map String.ofList, x⟩
      = written (some (x.plain ++ LengthUnit.deg.suffix)) (colors.map (Part.stop · [])) ++ [')'] := by
  have htexts : (colors.map (Part.stop · [])).map Part.text = colors := by
    rw [List.map_map]
    exact List.map_id'' (fun color => List.append_nil color) colors
  have hcolors : (colors.map String.ofList).map String.toList = colors := by
    rw [List.map_map]
    exact List.map_id'' (fun _ => String.toList_ofList) colors
  obtain ⟨color, rest, rfl⟩ := List.exists_cons_of_ne_nil hne
  have hseparator : "deg, ".toList = LengthUnit.deg.suffix ++ ", ".toList := rfl
  rw [render, written, htexts, hcolors, Option.toList_some, List.singleton_append,
    Text.joined_cons_cons, hseparator]
  simp only [Double.plain, List.append_assoc]

/-- **Reading a gradient undoes writing it**: a text with an angle or none, stops with positions and
bare hints is read as that angle and the colours of the stops; and a gradient that was read is read
again from its own text, with the same colours and an angle that is equal as a number. -/
theorem parse?_undoes_writing :
    (∀ (written? : Option (List Char)) (angle : FiniteDouble) (parts : List Part) (suffix : List Char),
      AngleOf parts angle written? → (∀ part ∈ parts, part.Valid) →
      (∃ part ∈ parts, part.color?.isSome) →
      parse? (written written? parts ++ ')' :: suffix)
        = some ⟨(parts.filterMap Part.color?).map String.ofList, angle⟩)
    ∧ ∀ cs g, parse? cs = some g →
      ∃ h, parse? g.render = some h ∧ h.colors = g.colors ∧
        Double.le h.angle g.angle ∧ Double.le g.angle h.angle := by
  refine ⟨fun written? angle parts suffix hangle hparts hstop => parse?_text hangle hparts hstop suffix,
    fun cs g hread => ?_⟩
  obtain ⟨x, colors, rfl, hne, hcolors⟩ := exists_of_parse? hread
  obtain ⟨y, hy, hsigned⟩ := exists_parseAngle?_plain x
  have hparts : ∀ part ∈ colors.map (Part.stop · []), part.Valid :=
    List.forall_mem_map.2 fun color hcolor => ⟨hcolors color hcolor, fun _ h => absurd h List.not_mem_nil⟩
  have hstop : ∃ part ∈ colors.map (Part.stop · []), part.color?.isSome := by
    obtain ⟨color, hcolor⟩ := List.exists_mem_of_ne_nil colors hne
    exact ⟨_, List.mem_map_of_mem hcolor, rfl⟩
  have hkept : (colors.map (Part.stop · [])).filterMap Part.color? = colors := by
    rw [List.filterMap_map]
    exact List.filterMap_some
  have hangle : AngleOf (colors.map (Part.stop · [])) y (some (x.plain ++ LengthUnit.deg.suffix)) := hy
  refine ⟨⟨colors.map String.ofList, y⟩, ?_, rfl, decide_eq_true (Int.le_of_eq hsigned),
    decide_eq_true (Int.le_of_eq hsigned.symm)⟩
  rw [render_eq_written hne, parse?_text hangle hparts hstop [], hkept]

/-- Positions and a hint between functional and named colours, and more text after the gradient. -/
theorem parse?_undoes_writing_right :
    parse? "linear-gradient(to right, rgb(0, 0, 0) 10% 20%, 50 %, red) no-repeat".toList
        = some ⟨["rgb(0, 0, 0)", "red"], FiniteDouble.ofUInt64 90⟩
      ∧ ∃ h, parse? (render ⟨["rgb(0, 0, 0)", "red"], FiniteDouble.ofUInt64 90⟩) = some h
        ∧ h.colors = ["rgb(0, 0, 0)", "red"] ∧ Double.le h.angle (FiniteDouble.ofUInt64 90)
        ∧ Double.le (FiniteDouble.ofUInt64 90) h.angle := by
  obtain ⟨hwritten, hread⟩ := parse?_undoes_writing
  have hfunctional : IsColor "rgb(0, 0, 0)".toList := by
    refine ⟨by decide, by decide, ⟨by decide, by decide⟩, by decide, fun word hword => ?_⟩
    have hlast : (Text.words "rgb(0, 0, 0)".toList).getLast? = some "0)".toList := by decide
    obtain rfl := Option.some.inj (hlast.symm.trans hword)
    decide
  have hnamed : IsColor "red".toList := by
    refine ⟨by decide, by decide, ⟨by decide, by decide⟩, by decide, fun word hword => ?_⟩
    have hlast : (Text.words "red".toList).getLast? = some "red".toList := by decide
    obtain rfl := Option.some.inj (hlast.symm.trans hword)
    decide
  have hpositions : ∀ position ∈ ["10%".toList, "20%".toList], IsPosition position := by
    simp only [List.forall_mem_cons]
    exact ⟨⟨fun _ => Text.eq_false_of_all (by decide), by decide +kernel⟩,
      ⟨fun _ => Text.eq_false_of_all (by decide), by decide +kernel⟩, List.forall_mem_nil _⟩
  have hangle : parseAngle? "to right".toList = some (FiniteDouble.ofUInt64 90) := by decide +kernel
  have hhint : (Dimension.parse? "50 %".toList).isSome := by decide +kernel
  obtain ⟨parts, hparts⟩ : ∃ parts, parts = [Part.stop "rgb(0, 0, 0)".toList
      ["10%".toList, "20%".toList], .hint "50 %".toList, .stop "red".toList []] := ⟨_, rfl⟩
  have hvalid : ∀ part ∈ parts, part.Valid := by
    simp only [hparts, List.forall_mem_cons]
    exact ⟨⟨hfunctional, hpositions⟩, hhint, ⟨hnamed, List.forall_mem_nil _⟩, List.forall_mem_nil _⟩
  have htext : "linear-gradient(to right, rgb(0, 0, 0) 10% 20%, 50 %, red) no-repeat".toList
      = written (some "to right".toList) parts ++ ')' :: " no-repeat".toList := by
    rw [hparts]
    decide +kernel
  have hcolors : (parts.filterMap Part.color?).map String.ofList = ["rgb(0, 0, 0)", "red"] := by
    rw [hparts]
    decide +kernel
  have hright := hwritten (some "to right".toList) (FiniteDouble.ofUInt64 90) parts
    " no-repeat".toList hangle hvalid ⟨_, hparts ▸ List.mem_cons_self, rfl⟩
  rw [hcolors, ← htext] at hright
  exact ⟨hright, hread _ _ hright⟩

end Gradient

end ScreenLayout
