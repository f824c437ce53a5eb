import ScreenLayout.Proofs.Number.ReadBack
import ScreenLayout.Proofs.Text.Blank

/-!
# Proofs/Style/Dimension — what a dimension is made of

A dimension is a number, blanks and a unit.  Numbers are made of letters, digits, signs and points, so
a blank in a dimension can only stand before its unit, and what follows the blank is no dimension by
itself.

* `Double.isNumberChar_of_parse?` — the characters of a number.
* `Dimension.parse?_eq_some_iff` — a dimension is its number and its unit.
* `Dimension.isDimensionChar_of_parse?` — the characters of a dimension.
* `Dimension.parse?_afterBlank` — what follows a blank in a dimension is no dimension.
-/

namespace ScreenLayout

/-! ## Numbers -/

namespace Numeral

/-- The characters of numbers. -/
def isNumberChar (c : Char) : Bool := c.isAlpha || c.isDigit || numberMarks.contains c

variable {cs : List Char} {c : Char}

theorem isNumberChar_of_isAlpha (hc : c.isAlpha) : isNumberChar c := by simp [isNumberChar, hc]

theorem isNumberChar_of_isDigit (hc : c.isDigit) : isNumberChar c := by simp [isNumberChar, hc]

theorem isNumberChar_of_mem_splitSign : ∀ c ∈ (splitSign cs).1, isNumberChar c := by
  unfold splitSign
  split <;> simp [isNumberChar, numberMarks]

theorem isNumberChar_of_exponent? {e : Int} (h : exponent? cs = some e) :
    ∀ c ∈ cs, isNumberChar c := by
  cases cs with
  | nil => exact fun _ hc => absurd hc List.not_mem_nil
  | cons mark cs =>
    obtain ⟨hread, -⟩ := Option.ite_none_right_eq_some.1 h
    simp only [Bool.and_eq_true, List.all_eq_true] at hread
    obtain ⟨⟨hmark, -⟩, hdigits⟩ := hread
    have hletter : isNumberChar mark := by
      rcases Bool.or_eq_true_iff.1 hmark with hmark | hmark
      · rw [eq_of_beq hmark]; rfl
      · rw [eq_of_beq hmark]; rfl
    have hcs : ∀ c ∈ (splitSign cs).1 ++ (splitSign cs).2, isNumberChar c :=
      List.forall_mem_append.2 ⟨isNumberChar_of_mem_splitSign, fun c hc =>
        isNumberChar_of_isDigit (hdigits c hc)⟩
    rw [splitSign_append] at hcs
    exact List.forall_mem_cons.2 ⟨hletter, hcs⟩

theorem isNumberChar_of_mem_digits (cs : List Char) : ∀ c ∈ digits cs, isNumberChar c :=
  fun _ hc => isNumberChar_of_isDigit (List.mem_takeWhile_imp hc)

theorem isNumberChar_of_splitFraction (h : ∀ c ∈ (splitFraction cs).2, isNumberChar c) :
    ∀ c ∈ cs, isNumberChar c := by
  unfold splitFraction at h
  split at h
  · rename_i ds
    rw [← digits_append_afterDigits ds, List.forall_mem_cons, List.forall_mem_append]
    exact ⟨rfl, isNumberChar_of_mem_digits ds, h⟩
  · exact h

theorem isNumberChar_of_decimal? {negative : Bool} {d : Decimal}
    (h : decimal? negative cs = some d) : ∀ c ∈ cs, isNumberChar c := by
  obtain ⟨-, hread⟩ := Option.ite_none_left_eq_some.1 h
  obtain ⟨e, he, -⟩ := Option.map_eq_some_iff.1 hread
  rw [← digits_append_afterDigits cs, List.forall_mem_append]
  exact ⟨isNumberChar_of_mem_digits cs,
    isNumberChar_of_splitFraction (isNumberChar_of_exponent? he)⟩

/-- Only a letter becomes a letter when it is lowered. -/
theorem isAlpha_of_isAlpha_toLower (hc : c.toLower.isAlpha) : c.isAlpha := by
  refine Decidable.of_not_not fun hnot => ?_
  rw [Text.toLower_of_not_isAlpha (Bool.eq_false_iff.2 hnot)] at hc
  exact hnot hc

theorem isNumberChar_of_word? {negative : Bool} {x : Double} (h : word? negative cs = some x) :
    ∀ c ∈ cs, isNumberChar c := by
  have hletters : ∀ word ∈ ["inf", "infinity", "nan"], word.toList.all Char.isAlpha := by decide
  have hword : ∃ word ∈ ["inf", "infinity", "nan"], cs.map Char.toLower = word.toList := by
    unfold word? at h
    dsimp only at h
    split at h
    · rename_i hinf
      rcases hinf with hinf | hinf
      · exact ⟨_, by decide, hinf⟩
      · exact ⟨_, by decide, hinf⟩
    · split at h
      · rename_i hnan
        exact ⟨_, by decide, hnan⟩
      · cases h
  obtain ⟨word, hmem, hword⟩ := hword
  intro c hc
  have hlower : c.toLower ∈ word.toList := hword ▸ List.mem_map_of_mem hc
  exact isNumberChar_of_isAlpha
    (isAlpha_of_isAlpha_toLower (List.all_eq_true.1 (hletters word hmem) _ hlower))

end Numeral

/-- **A number is made of letters, digits, signs and points.** -/
theorem Double.isNumberChar_of_parse? {cs : List Char} {x : Double} (h : Double.parse? cs = some x) :
    ∀ c ∈ cs, Numeral.isNumberChar c := by
  rw [← Numeral.splitSign_append cs, List.forall_mem_append]
  refine ⟨Numeral.isNumberChar_of_mem_splitSign, ?_⟩
  unfold Double.parse? at h
  dsimp only at h
  generalize Numeral.splitSign cs = parts at h ⊢
  cases hword : Numeral.word? (decide (parts.1 = ['-'])) parts.2 with
  | some y => exact Numeral.isNumberChar_of_word? hword
  | none =>
    rw [hword] at h
    obtain ⟨d, hd, -⟩ := Option.map_eq_some_iff.1 h
    exact Numeral.isNumberChar_of_decimal? hd

theorem FiniteDouble.isNumberChar_of_parse? {cs : List Char} {x : FiniteDouble}
    (h : FiniteDouble.parse? cs = some x) : ∀ c ∈ cs, Numeral.isNumberChar c := by
  obtain ⟨y, hy, -⟩ := Option.bind_eq_some_iff.1 h
  exact Double.isNumberChar_of_parse? hy

/-- A blank is in no number. -/
theorem Numeral.isBlank_of_isNumberChar {c : Char} (hc : isNumberChar c) : Text.isBlank c = false :=
  Text.isBlank_eq_false_of (by decide) hc

/-! ## Dimensions -/

namespace Dimension

variable {cs : List Char} {d : Dimension}

/-- The number a dimension begins with. -/
def numberText (cs : List Char) : List Char :=
  Text.trimEnd ((Text.trim cs).takeWhile (!isSuffixStart ·))

/-- The unit a dimension ends in. -/
def suffixText (cs : List Char) : List Char := (Text.trim cs).dropWhile (!isSuffixStart ·)

/-- **A dimension is its number and its unit.** -/
theorem parse?_eq_some_iff : parse? cs = some d ↔
    (∃ c ∈ numberText cs, c.isDigit) ∧ FiniteDouble.parse? (numberText cs) = some d.value ∧
      unit? (suffixText cs) = some d.unit := by
  obtain ⟨value, unit⟩ := d
  have hnumber : Text.trimEnd ((Text.trim cs).takeWhile (!isSuffixStart ·)) = numberText cs := rfl
  have hsuffix : (Text.trim cs).dropWhile (!isSuffixStart ·) = suffixText cs := rfl
  unfold parse?
  dsimp only
  rw [hnumber, hsuffix, Option.ite_none_right_eq_some, List.any_eq_true]
  refine and_congr_right fun _ => ?_
  cases FiniteDouble.parse? (numberText cs) <;> cases unit? (suffixText cs) <;> simp

theorem parse?_trim (cs : List Char) : parse? (Text.trim cs) = parse? cs := by
  rw [parse?, Text.trim_trim]
  rfl

/-- A dimension has a digit. -/
theorem exists_isDigit_of_parse? (h : parse? cs = some d) :
    ∃ c ∈ (Text.trim cs).takeWhile (!isSuffixStart ·), c.isDigit := by
  obtain ⟨⟨c, hc, hdigit⟩, -⟩ := parse?_eq_some_iff.1 h
  exact ⟨c, (List.rdropWhile_prefix Text.isBlank _).subset hc, hdigit⟩

theorem isSuffixStart_of_mem_suffix (u : LengthUnit) : ∀ c ∈ u.suffix, isSuffixStart c := by
  have hall : u.suffix.all isSuffixStart := by cases u <;> decide
  exact List.all_eq_true.1 hall

/-- Only letters and the percent sign become letters and the percent sign. -/
theorem isSuffixStart_of_unit? {u : Option LengthUnit} (h : unit? cs = some u) :
    ∀ c ∈ cs, isSuffixStart c := by
  unfold unit? at h
  split at h
  · rename_i hempty
    rw [List.isEmpty_iff.1 hempty]
    exact fun _ hc => absurd hc List.not_mem_nil
  · obtain ⟨unit, hunit, -⟩ := Option.map_eq_some_iff.1 h
    intro c hc
    have hlower : c.toLower ∈ unit.suffix := by
      rw [LengthUnit.suffix_eq_of_ofSuffix? hunit]
      exact List.mem_map_of_mem hc
    cases halpha : c.isAlpha with
    | true => simp [isSuffixStart, halpha]
    | false =>
      rw [← Text.toLower_of_not_isAlpha halpha]
      exact isSuffixStart_of_mem_suffix unit _ hlower

/-- No blank begins a unit. -/
theorem isBlank_of_isSuffixStart {c : Char} (hc : isSuffixStart c) : Text.isBlank c = false :=
  Text.isBlank_eq_false_of (by decide) hc

/-- The characters of dimensions. -/
def isDimensionChar (c : Char) : Bool := Numeral.isNumberChar c || isSuffixStart c || Text.isBlank c

/-- **A dimension is made of the characters of numbers and units, and of blanks.** -/
theorem isDimensionChar_of_parse? (h : parse? cs = some d) : ∀ c ∈ cs, isDimensionChar c := by
  obtain ⟨-, hnumber, hunit⟩ := parse?_eq_some_iff.1 h
  obtain ⟨front, back, hcs, hfront, hback⟩ := Text.exists_eq_append_trim cs
  have hblank : ∀ c, Text.isBlank c → isDimensionChar c := fun c hc => by simp [isDimensionChar, hc]
  have hbody : ∀ c ∈ Text.trim cs, isDimensionChar c := by
    rw [← List.takeWhile_append_dropWhile (p := (!isSuffixStart ·)) (l := Text.trim cs),
      List.forall_mem_append]
    refine ⟨?_, fun c hc => ?_⟩
    · rw [← List.rdropWhile_append_rtakeWhile (p := Text.isBlank)
        (l := (Text.trim cs).takeWhile (!isSuffixStart ·)), List.forall_mem_append]
      refine ⟨fun c hc => ?_, fun c hc => hblank c (List.mem_rtakeWhile_imp hc)⟩
      have hc := FiniteDouble.isNumberChar_of_parse? hnumber c hc
      simp [isDimensionChar, hc]
    · have hc := isSuffixStart_of_unit? hunit c hc
      simp [isDimensionChar, hc]
  rw [hcs, List.forall_mem_append, List.forall_mem_append]
  exact ⟨fun c hc => hblank c (hfront c hc), hbody, fun c hc => hblank c (hback c hc)⟩

/-- **What follows a blank in a dimension is no dimension**: it is the unit. -/
theorem parse?_afterBlank {head tail : List Char} {b : Char} (hb : Text.isBlank b)
    (htail : ∀ c ∈ tail, Text.isBlank c = false)
    (htrim : Text.trim (head ++ b :: tail) = head ++ b :: tail)
    (h : parse? (head ++ b :: tail) = some d) : parse? tail = none := by
  refine Option.eq_none_iff_forall_ne_some.2 fun d' h' => ?_
  have hstart : isSuffixStart b = false := Text.eq_false_of_isBlank (by decide) hb
  obtain ⟨-, hnumber, hunit⟩ := parse?_eq_some_iff.1 h
  rw [suffixText, htrim, List.dropWhile_append] at hunit
  split at hunit
  · -- the unit starts after the blank, so the blank is in the number
    rename_i hhead
    obtain ⟨c, hc, -⟩ := exists_isDigit_of_parse? h'
    rw [Text.trim_of_free htail] at hc
    have hnumberText : numberText (head ++ b :: tail)
        = head ++ b :: tail.takeWhile (!isSuffixStart ·) := by
      have hfront : ∀ c ∈ head, (!isSuffixStart c) = true :=
        List.dropWhile_eq_nil_iff.1 (List.isEmpty_iff.1 hhead)
      have hblank : (!isSuffixStart b) = true := by
        rw [hstart]
        rfl
      rw [numberText, htrim, List.takeWhile_append_of_pos hfront,
        List.takeWhile_cons_of_pos (p := (!isSuffixStart ·)) hblank, List.append_cons]
      exact Text.trimEnd_append_of_free _ (List.ne_nil_of_mem hc) fun c hc =>
        htail c ((List.takeWhile_sublist _).subset hc)
    rw [hnumberText] at hnumber
    have hchar := FiniteDouble.isNumberChar_of_parse? hnumber b (by simp)
    rw [Text.eq_false_of_isBlank (p := Numeral.isNumberChar) (by decide) hb] at hchar
    cases hchar
  · have hunitChar := isSuffixStart_of_unit? hunit b (by simp)
    rw [hstart] at hunitChar
    cases hunitChar

/-! ## Written dimensions -/

section Append

variable {n suffix : List Char} (hn : ∀ c ∈ n, isSuffixStart c = false)
  (hfree : ∀ c ∈ n, Text.isBlank c = false) (hsuffix : ∀ c ∈ suffix, isSuffixStart c)
include hn hfree hsuffix

/-- A number and a unit are told apart where the unit starts. -/
theorem numberText_append : numberText (n ++ suffix) = n ∧ suffixText (n ++ suffix) = suffix := by
  have htext : Text.trim (n ++ suffix) = n ++ suffix := Text.trim_of_free
    (List.forall_mem_append.2 ⟨hfree, fun c hc => isBlank_of_isSuffixStart (hsuffix c hc)⟩)
  have hnumber : ∀ c ∈ n, (!isSuffixStart c) = true := fun c hc => by rw [hn c hc]; rfl
  have hstop : suffix.takeWhile (!isSuffixStart ·) = []
      ∧ suffix.dropWhile (!isSuffixStart ·) = suffix := by
    obtain _ | ⟨c, cs⟩ := suffix
    · exact ⟨rfl, rfl⟩
    · have hc : ¬ (!isSuffixStart c) = true := by simp [hsuffix c List.mem_cons_self]
      exact ⟨List.takeWhile_cons_of_neg hc, List.dropWhile_cons_of_neg hc⟩
  constructor
  · rw [numberText, htext, List.takeWhile_append_of_pos hnumber, hstop.1, List.append_nil]
    exact Text.trimEnd_eq_self_iff.2 fun c hc => hfree c (List.mem_of_mem_getLast? hc)
  · rw [suffixText, htext, List.dropWhile_append_of_pos hnumber, hstop.2]

/-- **A number and a unit are read each by itself.** -/
theorem parse?_append_eq_some_iff : parse? (n ++ suffix) = some d ↔
    (∃ c ∈ n, c.isDigit) ∧ FiniteDouble.parse? n = some d.value ∧ unit? suffix = some d.unit := by
  obtain ⟨hnumber, hunit⟩ := numberText_append hn hfree hsuffix
  rw [parse?_eq_some_iff, hnumber, hunit]

end Append

theorem isSuffixStart_of_mem_plain (x : FiniteDouble) : ∀ c ∈ x.plain, isSuffixStart c = false := by
  intro c hc
  have hmarks : numberMarks.all (!isSuffixStart ·) := by decide
  rcases x.mem_plain c hc with hdigit | hmark
  · have hpercent : c ≠ '%' := by
      rintro rfl
      cases hdigit
    simp [isSuffixStart, isAlpha_of_isDigit hdigit, hpercent]
  · exact Text.eq_false_of_all hmarks hmark

theorem isBlank_of_mem_plain (x : FiniteDouble) : ∀ c ∈ x.plain, Text.isBlank c = false := by
  intro c hc
  refine Numeral.isBlank_of_isNumberChar ?_
  rcases x.mem_plain c hc with hdigit | hmark
  · exact Numeral.isNumberChar_of_isDigit hdigit
  · simp [Numeral.isNumberChar, hmark]

/-- The plain form has no letter to lower. -/
theorem lowerAscii_plain (x : FiniteDouble) : Text.lowerAscii x.plain = x.plain := by
  conv_rhs => rw [← List.map_id x.plain]
  refine List.map_congr_left fun c hc => Text.toLower_of_not_isAlpha ?_
  exact (Bool.or_eq_false_iff.1 (isSuffixStart_of_mem_plain x c hc)).1

theorem isBlank_of_mem_plain_suffix (x : FiniteDouble) (u : LengthUnit) :
    ∀ c ∈ x.plain ++ u.suffix, Text.isBlank c = false := by
  exact List.forall_mem_append.2 ⟨isBlank_of_mem_plain x, fun c hc =>
    isBlank_of_isSuffixStart (isSuffixStart_of_mem_suffix u c hc)⟩

/-- **A double with a unit reads back**, up to the sign of zero. -/
theorem exists_parse?_plain_suffix (x : FiniteDouble) (u : LengthUnit) :
    ∃ y, parse? (x.plain ++ u.suffix) = some ⟨y, some u⟩ ∧ y.signed = x.signed := by
  obtain ⟨y, hread, hsigned⟩ := x.exists_parse?_plain
  have hunit : unit? u.suffix = some (some u) := by
    have hempty : u.suffix.isEmpty = false := by cases u <;> rfl
    rw [unit?, hempty, LengthUnit.ofSuffix?_suffix]
    rfl
  refine ⟨y, (parse?_append_eq_some_iff (isSuffixStart_of_mem_plain x) (isBlank_of_mem_plain x)
    (isSuffixStart_of_mem_suffix u)).2 ?_, hsigned⟩
  exact ⟨x.exists_isDigit_mem_plain, hread, hunit⟩

end Dimension

end ScreenLayout
