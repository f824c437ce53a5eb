import Mathlib.Logic.Relation
import ScreenLayout.Proofs.Style.Dimension
import ScreenLayout.Style.Gradient

/-!
# Proofs/Style/GradientStop — the colour of a stop

A stop is a colour with positions after it.  They are dropped one at a time from the right, and every
turn leaves a shorter text, so the turns end.  A turn looks at the last word only, while a dimension
may have a blank before its unit; but a unit is no dimension, so a whole dimension is never taken apart,
and what is left is dropped or kept as a whole.

* `Gradient.DropsLast` — one turn, `Gradient.reflTransGen_dropsLast_iff` — where the turns end.
* `Gradient.ArePositions` — what the turns drop; `Gradient.withoutPositions_trimEnd_append` — they drop
  it after any text.
* `Gradient.stopColor?_eq_some_iff`, `Gradient.stopColor?_eq_none_iff` — the stops with a colour, and
  those without.
* `Gradient.stopColor?_settles` — stripping ends in a colour that stays as it is.
-/

namespace ScreenLayout

namespace Gradient

variable {cs next removed : List Char}

/-! ## Turns -/

/-- **One turn**: what stands after the last blank is a dimension, and is dropped with the blanks
before it. -/
inductive DropsLast : List Char → List Char → Prop where
  | drop {head tail : List Char} {b : Char} (blank : Text.isBlank b)
      (free : ∀ c ∈ tail, Text.isBlank c = false) (dimension : (Dimension.parse? tail).isSome) :
      DropsLast (head ++ b :: tail) (Text.trimEnd head)

/-- **A turn leaves a shorter text.** -/
theorem DropsLast.length_lt (h : DropsLast cs next) : next.length < cs.length := by
  cases h with
  | @drop head tail b _ _ _ =>
    have htrim := Text.length_dropEndWhile_le Text.isBlank head
    rw [List.length_append, List.length_cons]
    exact Nat.lt_of_le_of_lt htrim (by omega)

theorem dropsLast_iff : DropsLast cs next ↔ ∃ head tail,
    Text.splitLast? Text.isBlank cs = some (head, tail) ∧ (Dimension.parse? tail).isSome ∧
      Text.trimEnd head = next := by
  constructor
  · rintro ⟨hb, hfree, hdimension⟩
    exact ⟨_, _, Text.splitLast?_eq_some_iff.2 ⟨_, hb, rfl, hfree⟩, hdimension, rfl⟩
  · rintro ⟨head, tail, hsplit, hdimension, rfl⟩
    obtain ⟨b, hb, rfl, hfree⟩ := Text.splitLast?_eq_some_iff.1 hsplit
    exact .drop hb hfree hdimension

/-- **The turns of a text end**, and what is left then is the text without its positions. -/
theorem reflTransGen_withoutPositions (cs : List Char) :
    Relation.ReflTransGen DropsLast cs (withoutPositions cs) ∧
      ∀ next, ¬ DropsLast (withoutPositions cs) next := by
  fun_induction withoutPositions cs with
  | case1 cs hnone =>
    refine ⟨.refl, fun next hturn => ?_⟩
    obtain ⟨head, tail, hsome, -⟩ := dropsLast_iff.1 hturn
    rw [hnone] at hsome
    cases hsome
  | case2 cs head tail hsome hkept =>
    refine ⟨.refl, fun next hturn => ?_⟩
    obtain ⟨_, _, hsplit, hdimension, -⟩ := dropsLast_iff.1 hturn
    cases hsplit.symm.trans hsome
    rw [Option.isNone_iff_eq_none.1 hkept] at hdimension
    cases hdimension
  | case3 cs head tail hsome hdropped ih =>
    have hdimension : (Dimension.parse? tail).isSome :=
      Option.isSome_iff_ne_none.2 fun hnone => hdropped (Option.isNone_iff_eq_none.2 hnone)
    exact ⟨.head (dropsLast_iff.2 ⟨head, tail, hsome, hdimension, rfl⟩) ih.1, ih.2⟩

theorem withoutPositions_of_dropsLast (h : DropsLast cs next) :
    withoutPositions cs = withoutPositions next := by
  obtain ⟨head, tail, hsplit, hdimension, rfl⟩ := dropsLast_iff.1 h
  rw [withoutPositions]
  split
  · rename_i hnone
    rw [hsplit] at hnone
    cases hnone
  · rename_i hsome
    cases hsplit.symm.trans hsome
    rw [Option.isNone_eq_false_iff.2 hdimension, if_neg Bool.false_ne_true]

theorem withoutPositions_of_not_dropsLast (h : ∀ next, ¬ DropsLast cs next) :
    withoutPositions cs = cs := by
  rcases (reflTransGen_withoutPositions cs).1.cases_head with heq | ⟨next, hturn, -⟩
  · exact heq.symm
  · exact absurd hturn (h next)

/-- **Turns of which none is left** end in the text without its positions. -/
theorem reflTransGen_dropsLast_iff {last : List Char} :
    (Relation.ReflTransGen DropsLast cs last ∧ ∀ next, ¬ DropsLast last next) ↔
      last = withoutPositions cs := by
  constructor
  · rintro ⟨hturns, hlast⟩
    induction hturns using Relation.ReflTransGen.head_induction_on with
    | refl => exact (withoutPositions_of_not_dropsLast hlast).symm
    | head hturn _ ih => rw [ih, withoutPositions_of_dropsLast hturn]
  · rintro rfl
    exact reflTransGen_withoutPositions cs

/-! ## Trimmed texts -/

/-- A turn leaves a trimmed text as one. -/
theorem DropsLast.trim_eq (h : DropsLast cs next) (htrim : Text.trim cs = cs) :
    Text.trim next = next := by
  obtain ⟨-, -, -⟩ := h
  rw [← Text.trim_eq_trimEnd_of_append htrim, Text.trim_trim]

theorem trim_withoutPositions (htrim : Text.trim cs = cs) :
    Text.trim (withoutPositions cs) = withoutPositions cs := by
  have hturns := (reflTransGen_withoutPositions cs).1
  generalize withoutPositions cs = last at hturns
  induction hturns with
  | refl => exact htrim
  | tail _ hturn ih => exact hturn.trim_eq ih

/-- A text is free of blanks, or its last blank cuts it. -/
theorem free_or_exists_lastBlank (cs : List Char) : (∀ c ∈ cs, Text.isBlank c = false) ∨
    ∃ head b tail, Text.isBlank b ∧ (∀ c ∈ tail, Text.isBlank c = false) ∧ cs = head ++ b :: tail := by
  cases h : Text.splitLast? Text.isBlank cs with
  | none => exact .inl (Text.splitLast?_eq_none_iff.1 h)
  | some parts =>
    obtain ⟨b, hb, hcs, htail⟩ := Text.splitLast?_eq_some_iff.1 h
    exact .inr ⟨parts.1, b, parts.2, hb, htail, hcs⟩

/-- A trimmed text keeps its last word if that is no dimension. -/
theorem not_dropsLast_of_last_word (htrim : Text.trim cs = cs)
    (hlast : ∀ word, (Text.words cs).getLast? = some word → Dimension.parse? word = none) :
    ∀ next, ¬ DropsLast cs next := by
  intro next hturn
  cases hturn with
  | @drop head tail b hb hfree hdimension =>
    rw [hlast tail (Text.getLast?_words_append_cons hb hfree htrim)] at hdimension
    cases hdimension

/-- **A dimension keeps its last word**: if a blank is in it, its unit follows, and that is no
dimension. -/
theorem withoutPositions_of_dimension (htrim : Text.trim cs = cs)
    (h : (Dimension.parse? cs).isSome) : withoutPositions cs = cs := by
  obtain ⟨d, hd⟩ := Option.isSome_iff_exists.1 h
  refine withoutPositions_of_not_dropsLast fun next hturn => ?_
  cases hturn with
  | @drop head tail b hb hfree hdimension =>
    rw [Dimension.parse?_afterBlank hb hfree htrim hd] at hdimension
    cases hdimension

/-- What no turn shortens, and is no dimension itself, does not end in one. -/
theorem exists_last_word (htrim : Text.trim cs = cs) (hne : cs ≠ [])
    (hdimension : Dimension.parse? cs = none) (hlast : ∀ next, ¬ DropsLast cs next) :
    ∃ word, (Text.words cs).getLast? = some word ∧ Dimension.parse? word = none := by
  rcases free_or_exists_lastBlank cs with hfree | ⟨head, b, tail, hb, htail, rfl⟩
  · refine ⟨cs, ?_, hdimension⟩
    rw [Text.words_of_free hne hfree]
    rfl
  · refine ⟨tail, Text.getLast?_words_append_cons hb htail htrim, ?_⟩
    exact Option.not_isSome_iff_eq_none.1 fun htail' => hlast _ (.drop hb htail htail')

/-! ## Positions -/

/-- **A position**: a dimension without a blank. -/
structure IsPosition (position : List Char) : Prop where
  free : ∀ c ∈ position, Text.isBlank c = false
  dimension : (Dimension.parse? position).isSome

theorem IsPosition.ne_nil {position : List Char} (h : IsPosition position) : position ≠ [] := by
  rintro rfl
  exact absurd h.dimension (by decide)

/-- **Positions as they stand after a text**, each of them after blanks. -/
inductive ArePositions : List Char → Prop where
  | none : ArePositions []
  | concat {front gap position : List Char} (before : ArePositions front) (apart : gap ≠ [])
      (blank : ∀ c ∈ gap, Text.isBlank c) (last : IsPosition position) :
      ArePositions (front ++ (gap ++ position))

/-- Positions begin with a blank. -/
theorem ArePositions.isBlank_head (h : ArePositions cs) : ∀ c ∈ cs.head?, Text.isBlank c := by
  induction h with
  | none => exact fun _ hc => absurd hc (Option.not_mem_none _)
  | @concat front gap position _ apart blank _ ih =>
    intro c hc
    rcases eq_or_ne front [] with rfl | hne
    · rw [List.nil_append, List.head?_append_of_ne_nil _ apart] at hc
      exact blank c (List.mem_of_mem_head? hc)
    · rw [List.head?_append_of_ne_nil _ hne] at hc
      exact ih c hc

/-- Positions are no trimmed text. -/
theorem ArePositions.eq_nil (h : ArePositions cs) (htrim : Text.trim cs = cs) : cs = [] := by
  rcases cs with _ | ⟨c, cs⟩
  · rfl
  · have hblank := h.isBlank_head c rfl
    rw [(Text.trim_eq_self_iff.1 htrim).1 c rfl] at hblank
    cases hblank

/-- **What the turns drop** are positions. -/
theorem exists_eq_withoutPositions_append (cs : List Char) :
    ∃ removed, cs = withoutPositions cs ++ removed ∧ ArePositions removed := by
  have hturns := (reflTransGen_withoutPositions cs).1
  generalize withoutPositions cs = last at hturns
  induction hturns using Relation.ReflTransGen.head_induction_on with
  | refl => exact ⟨[], (List.append_nil last).symm, .none⟩
  | head hturn _ ih =>
    cases hturn with
    | @drop head tail b hb hfree hdimension =>
      obtain ⟨removed, hhead, hremoved⟩ := ih
      obtain ⟨gap, hgap, hblank⟩ := Text.exists_eq_append_trimEnd head
      refine ⟨removed ++ (gap ++ [b] ++ tail), ?_, hremoved.concat ?_ ?_ ⟨hfree, hdimension⟩⟩
      · conv_lhs => rw [hgap, hhead]
        simp only [List.append_assoc, List.singleton_append]
      · exact List.append_ne_nil_of_right_ne_nil gap (List.cons_ne_nil b [])
      · exact List.forall_mem_append.2 ⟨hblank, List.forall_mem_singleton.2 hb⟩

/-- **Positions after any text are dropped.** -/
theorem withoutPositions_trimEnd_append (h : ArePositions removed) (front : List Char) :
    withoutPositions (Text.trimEnd (front ++ removed)) = withoutPositions (Text.trimEnd front) := by
  induction h with
  | none => rw [List.append_nil]
  | @concat before gap position _ apart blank last ih =>
    obtain ⟨blanks, b, rfl⟩ := List.eq_nil_or_concat' gap |>.resolve_left apart
    obtain ⟨hblanks, hb⟩ := List.forall_mem_append.1 blank
    have htext : front ++ (before ++ (blanks ++ [b] ++ position))
        = front ++ before ++ blanks ++ b :: position := by
      simp only [List.append_assoc, List.singleton_append]
    have hend : Text.trimEnd (front ++ (before ++ (blanks ++ [b] ++ position)))
        = front ++ before ++ blanks ++ b :: position := by
      rw [htext, List.append_cons]
      exact Text.trimEnd_append_of_free _ last.ne_nil last.free
    have hturn : DropsLast (front ++ before ++ blanks ++ b :: position)
        (Text.trimEnd (front ++ before ++ blanks)) :=
      .drop (hb b (List.mem_singleton_self b)) last.free last.dimension
    rw [hend, withoutPositions_of_dropsLast hturn, Text.trimEnd_append_blank hblanks, ih]

/-! ## The colour of a stop -/

/-- **The stops with a colour**: it is trimmed, neither is a dimension nor ends in one, and has
positions after it. -/
theorem stopColor?_eq_some_iff {color : List Char} : stopColor? cs = some color ↔
    color ≠ [] ∧ Text.trim color = color ∧ Dimension.parse? color = none ∧
      (∃ word, (Text.words color).getLast? = some word ∧ Dimension.parse? word = none) ∧
      ∃ removed, Text.trim cs = color ++ removed ∧ ArePositions removed := by
  have hread : stopColor? cs = some color ↔
      withoutPositions (Text.trim cs) = color ∧ color ≠ [] ∧ Dimension.parse? color = none := by
    rw [stopColor?, Option.ite_none_left_eq_some, Option.some.injEq, Bool.or_eq_true, not_or,
      List.isEmpty_iff, Option.not_isSome_iff_eq_none]
    constructor
    · rintro ⟨h, rfl⟩
      exact ⟨rfl, h⟩
    · rintro ⟨rfl, h⟩
      exact ⟨h, rfl⟩
  rw [hread]
  constructor
  · rintro ⟨rfl, hne, hdimension⟩
    have htrim := trim_withoutPositions (Text.trim_trim cs)
    exact ⟨hne, htrim, hdimension,
      exists_last_word htrim hne hdimension (reflTransGen_withoutPositions _).2,
      exists_eq_withoutPositions_append _⟩
  · rintro ⟨hne, htrim, hdimension, ⟨word, hword, hlast⟩, removed, hcs, hremoved⟩
    refine ⟨?_, hne, hdimension⟩
    have hkept : ∀ next, ¬ DropsLast color next := by
      refine not_dropsLast_of_last_word htrim fun other hother => ?_
      rwa [← Option.some.inj (hword.symm.trans hother)]
    rw [← Text.trimEnd_of_trim (Text.trim_trim cs), hcs, withoutPositions_trimEnd_append hremoved,
      Text.trimEnd_of_trim htrim, withoutPositions_of_not_dropsLast hkept]

/-- **The stops without a colour**: nothing, or a dimension with positions after it. -/
theorem stopColor?_eq_none_iff : stopColor? cs = none ↔ Text.trim cs = [] ∨
    ∃ front removed, Text.trim cs = front ++ removed ∧ (Dimension.parse? front).isSome ∧
      ArePositions removed := by
  have hread : stopColor? cs = none ↔ withoutPositions (Text.trim cs) = [] ∨
      (Dimension.parse? (withoutPositions (Text.trim cs))).isSome := by
    rw [stopColor?, ite_eq_left_iff, Bool.or_eq_true, List.isEmpty_iff]
    exact ⟨fun h => Decidable.of_not_not fun hnot => absurd (h hnot) (Option.some_ne_none _),
      fun h hnot => absurd h hnot⟩
  obtain ⟨removed, hcs, hremoved⟩ := exists_eq_withoutPositions_append (Text.trim cs)
  rw [hread]
  constructor
  · rintro (hnil | hdimension)
    · rw [hnil, List.nil_append] at hcs
      exact .inl (hcs.trans (hremoved.eq_nil (hcs ▸ Text.trim_trim cs)))
    · exact .inr ⟨_, removed, hcs, hdimension, hremoved⟩
  · rintro (hnil | ⟨front, after, hfront, hdimension, hafter⟩)
    · rw [hnil] at hcs ⊢
      exact .inl (List.append_eq_nil_iff.1 hcs.symm).1
    · have htrim : Text.trim (front ++ after) = front ++ after := by
        rw [← hfront, Text.trim_trim]
      rw [← Dimension.parse?_trim] at hdimension
      right
      rw [hfront, ← Text.trimEnd_of_trim htrim, withoutPositions_trimEnd_append hafter,
        ← Text.trim_eq_trimEnd_of_append htrim,
        withoutPositions_of_dimension (Text.trim_trim front) hdimension]
      exact hdimension

/-- **Stripping settles.**  Each turn leaves a shorter text, and the turns of a stop end in the text
without its positions.  A stop has the colours, and only those, that are trimmed, neither are a
dimension nor end in one, and have the rest of the stop as positions after them; a colour is its own.
A stop has none when it is blank, or a dimension with positions after it. -/
theorem stopColor?_settles (cs : List Char) :
    (∀ text next, DropsLast text next → next.length < text.length) ∧
    (∀ last, Relation.ReflTransGen DropsLast (Text.trim cs) last ∧ (∀ next, ¬ DropsLast last next) ↔
      last = withoutPositions (Text.trim cs)) ∧
    (∀ color, stopColor? cs = some color ↔
      color ≠ [] ∧ Text.trim color = color ∧ Dimension.parse? color = none ∧
        (∃ word, (Text.words color).getLast? = some word ∧ Dimension.parse? word = none) ∧
        ∃ removed, Text.trim cs = color ++ removed ∧ ArePositions removed) ∧
    (∀ color, stopColor? cs = some color → stopColor? color = some color) ∧
    (stopColor? cs = none ↔ Text.trim cs = [] ∨
      ∃ front removed, Text.trim cs = front ++ removed ∧ (Dimension.parse? front).isSome ∧
        ArePositions removed) := by
  refine ⟨fun text next => DropsLast.length_lt, fun last => reflTransGen_dropsLast_iff,
    fun color => stopColor?_eq_some_iff, fun color hcolor => ?_, stopColor?_eq_none_iff⟩
  obtain ⟨hne, htrim, hdimension, hlast, -⟩ := stopColor?_eq_some_iff.1 hcolor
  have hwhole : Text.trim color = color ++ [] := htrim.trans (List.append_nil color).symm
  exact stopColor?_eq_some_iff.2 ⟨hne, htrim, hdimension, hlast, [], hwhole, .none⟩

/-- Two positions after a functional colour are dropped, and a dimension with a blank is not taken
apart when the position after it is. -/
theorem stopColor?_settles_functional :
    (∃ last, Relation.ReflTransGen DropsLast (Text.trim "rgb(0, 0, 0) 10% 20%".toList) last ∧
      ∀ next, ¬ DropsLast last next)
    ∧ stopColor? "rgb(0, 0, 0) 10% 20%".toList = some "rgb(0, 0, 0)".toList
    ∧ stopColor? "rgb(0, 0, 0)".toList = some "rgb(0, 0, 0)".toList
    ∧ stopColor? "50 % 10px".toList = none := by
  have hlast : ∀ {front word : List Char}, ArePositions front → word.all (!Text.isBlank ·) →
      (Dimension.parse? word).isSome → ArePositions (front ++ ([' '] ++ word)) :=
    fun hfront hfree hdimension => hfront.concat (List.cons_ne_nil _ _)
      (List.forall_mem_singleton.2 (by decide)) ⟨fun _ => Text.eq_false_of_all hfree, hdimension⟩
  have hten : ArePositions ([] ++ ([' '] ++ "10%".toList)) :=
    hlast .none (by decide) (by decide +kernel)
  have hboth : ArePositions ([] ++ ([' '] ++ "10%".toList) ++ ([' '] ++ "20%".toList)) :=
    hlast hten (by decide) (by decide +kernel)
  have hpixels : ArePositions ([] ++ ([' '] ++ "10px".toList)) :=
    hlast .none (by decide) (by decide +kernel)
  obtain ⟨-, hends, hread, hagain, -⟩ := stopColor?_settles "rgb(0, 0, 0) 10% 20%".toList
  obtain ⟨-, -, -, -, hnone⟩ := stopColor?_settles "50 % 10px".toList
  have hcolor : stopColor? "rgb(0, 0, 0) 10% 20%".toList = some "rgb(0, 0, 0)".toList :=
    (hread _).2 ⟨by decide, by decide, by decide, ⟨"0)".toList, by decide, by decide⟩, _, by decide,
      hboth⟩
  exact ⟨⟨_, (hends _).2 rfl⟩, hcolor, hagain _ hcolor,
    hnone.2 (.inr ⟨"50 %".toList, _, by decide, by decide +kernel, hpixels⟩)⟩

end Gradient

end ScreenLayout
