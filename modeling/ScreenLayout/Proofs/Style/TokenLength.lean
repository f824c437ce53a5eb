import ScreenLayout.Proofs.Number.Numeral
import ScreenLayout.Proofs.Style.Dimension
import ScreenLayout.Proofs.Style.Scan

/-!
# Proofs/Style/TokenLength — lengths taken and lengths read

The scanner takes a length as its expression matches it; the parser splits a text where the unit
starts and reads the number before it.  Both accept the same lengths:

    -.5REM   ──▸   one dimension   ──▸   -0.5, in the units of the font

The parser alone accepts blanks, a plus sign, and a point with no digit after it.

* `Dimension.parse?_number_append` — a number with a unit is read as the decimal it spells.
* `Dimension.exists_numeral_of_parse?` — the number that a dimension is read from.
* `Token.lengths_agree` — every length taken is read, and every length read is taken.
-/

namespace ScreenLayout

open Numeral TokenKind

/-! ## Units -/

section Units

variable {cs : List Char}

theorem Dimension.exists_unit?_of_mem_unit (h : cs ∈ TokenKind.unit) :
    ∃ u, unit? cs = some (some u) := by
  obtain ⟨u, hu, hsuffix⟩ := mem_unit.1 h
  obtain ⟨c, tail, rfl, -⟩ := exists_cons_of_mem_unit h
  obtain ⟨v, hv⟩ : ∃ v, LengthUnit.ofSuffix? (c :: tail) = some v :=
    Option.isSome_iff_exists.1 (List.find?_isSome.2 ⟨u, hu, by rw [hsuffix, beq_self_eq_true]⟩)
  exact ⟨v, by rw [unit?, hv]; rfl⟩

/-- A suffix is nothing or a unit. -/
theorem Dimension.mem_unit_of_unit? {u : Option LengthUnit} (h : unit? cs = some u) :
    cs = [] ∧ u = none ∨ cs ∈ TokenKind.unit ∧ u.isSome := by
  unfold unit? at h
  split at h
  · rename_i hempty
    exact .inl ⟨List.isEmpty_iff.1 hempty, (Option.some.inj h).symm⟩
  · obtain ⟨v, hv, rfl⟩ := Option.map_eq_some_iff.1 h
    have hall : v ∈ LengthUnit.all := by cases v <;> decide
    exact .inr ⟨mem_unit.2 ⟨v, hall, (LengthUnit.suffix_eq_of_ofSuffix? hv).symm⟩, rfl⟩

end Units

/-! ## Numbers with a unit -/

section Numbers

variable {n suffix cs : List Char} {u : Option LengthUnit} {d : Dimension}

/-- The numbers of tokens are numerals, without an exponent. -/
theorem mem_pattern_of_mem_number (hn : n ∈ TokenKind.number.pattern) : n ∈ Numeral.pattern := by
  obtain hn | ⟨body, hbody, rfl⟩ := mem_pattern_number.1 hn
  · exact mem_pattern_of_unsigned (mem_signPattern.2 (.inl rfl)) hn
  · exact mem_pattern_of_unsigned (mem_signPattern.2 (.inr (.inr rfl))) hbody

theorem exists_isDigit_of_mem_number (hn : n ∈ TokenKind.number.pattern) : ∃ c ∈ n, c.isDigit := by
  obtain hn | ⟨body, hbody, rfl⟩ := mem_pattern_number.1 hn
  · exact exists_isDigit_of_mem_unsigned hn
  · obtain ⟨c, hc, hdigit⟩ := exists_isDigit_of_mem_unsigned hbody
    exact ⟨c, List.mem_cons_of_mem _ hc, hdigit⟩

theorem isSuffixStart_of_isNumeric {c : Char} (hc : isNumeric c) :
    Dimension.isSuffixStart c = false := by
  cases hstart : Dimension.isSuffixStart c with
  | false => rfl
  | true =>
    obtain halpha | hpercent := Bool.or_eq_true_iff.1 hstart
    · rw [isNumeric_of_isIdentStart (Bool.or_eq_true_iff.2 (.inl halpha))] at hc
      cases hc
    · rw [eq_of_beq hpercent] at hc
      cases hc

/-- No digit begins a unit. -/
theorem Dimension.isDigit_of_isSuffixStart {c : Char} (hc : isSuffixStart c) : c.isDigit = false := by
  cases hdigit : c.isDigit with
  | false => rfl
  | true =>
    rw [isSuffixStart_of_isNumeric (isNumeric_of_isDigit hdigit)] at hc
    cases hc

/-- **A number with a unit is read as the decimal it spells.** -/
theorem Dimension.parse?_number_append (hn : n ∈ TokenKind.number.pattern)
    (hsuffix : unit? suffix = some u) :
    parse? (n ++ suffix) = (spelled n).toDouble.finite?.map fun x => ⟨x, u⟩ := by
  have hnumeric := isNumeric_of_mem_number hn
  have hfree : ∀ c ∈ n, Text.isBlank c = false := fun c hc =>
    Text.isBlank_eq_false_of (by decide) (hnumeric c hc)
  refine Option.ext fun d => ?_
  rw [parse?_append_eq_some_iff (fun c hc => isSuffixStart_of_isNumeric (hnumeric c hc)) hfree
    (isSuffixStart_of_unit? hsuffix), FiniteDouble.parse?,
    Double.parse?_of_mem_pattern (mem_pattern_of_mem_number hn), Option.bind_some, hsuffix]
  obtain ⟨value, unit⟩ := d
  simp [exists_isDigit_of_mem_number hn]

/-- **The number that a dimension is read from** is a numeral, perhaps with a point after it. -/
theorem Dimension.exists_numeral_of_parse? (h : parse? cs = some d) :
    ∃ sign body point, sign ∈ signPattern ∧ body ∈ unsigned ∧ (point = [] ∨ point = ['.']) ∧
      numberText cs = sign ++ (body ++ point) ∧
        (spelled (sign ++ body)).toDouble = .finite d.value := by
  obtain ⟨-, hnumber, -⟩ := parse?_eq_some_iff.1 h
  obtain ⟨y, hy, hvalue⟩ := Option.bind_eq_some_iff.1 hnumber
  have hletters : ∀ c ∈ numberText cs, c.isAlpha = false := by
    intro c hc
    have hfront : c ∈ (Text.trim cs).takeWhile (!isSuffixStart ·) :=
      (List.rdropWhile_prefix Text.isBlank _).subset hc
    have hstart := List.mem_takeWhile_imp hfront
    simp only [isSuffixStart, Bool.not_or, Bool.and_eq_true, Bool.not_eq_true'] at hstart
    exact hstart.1
  obtain ⟨sign, body, point, hsign, hbody, hpoint, htext, hspelled⟩ :=
    Double.exists_numeral_of_parse? hy hletters
  refine ⟨sign, body, point, hsign, hbody, hpoint, htext, ?_⟩
  rw [← hspelled]
  exact Double.finite?_eq_some_iff.1 hvalue

end Numbers

/-! ## Tokens -/

namespace Token

variable {cs : List Char} {d : Dimension}

/-- **A token is a text of its kind.** -/
theorem mem_pattern_of_mem_scan {t : Token} (ht : t ∈ scan cs) : t.text ∈ t.kind.pattern := by
  obtain ⟨c, rest, tail, hmunch, htext⟩ := exists_munch_of_mem_scan ht
  have hfits := munch_fits c rest
  rw [hmunch] at hfits
  exact htext ▸ hfits.1.matched

/-- The decimal that the number of a token spells. -/
def decimal (t : Token) : Decimal := spelled (t.text.takeWhile isNumeric)

/-- **A length that is taken is read** as the decimal it spells, with a unit if it is a dimension. -/
theorem parse?_of_isLength {t : Token} (ht : t ∈ scan cs)
    (hkind : t.kind = .dimension ∨ t.kind = .number) :
    ∃ u : Option LengthUnit, (u.isSome ↔ t.kind = .dimension) ∧
      Dimension.parse? t.text = t.decimal.toDouble.finite?.map fun x => ⟨x, u⟩ := by
  obtain ⟨kind, text⟩ := t
  have hmatched := mem_pattern_of_mem_scan ht
  dsimp only at hkind hmatched ⊢
  obtain rfl | rfl := hkind
  · obtain ⟨n, hn, suffix, hsuffix, rfl⟩ := mem_pattern_dimension.1 hmatched
    obtain ⟨u, hu⟩ := Dimension.exists_unit?_of_mem_unit hsuffix
    obtain ⟨c, tail, rfl, hc⟩ := exists_cons_of_mem_unit hsuffix
    refine ⟨some u, iff_of_true rfl rfl, ?_⟩
    rw [Dimension.parse?_number_append hn hu, decimal,
      takeWhile_append_cons (isNumeric_of_mem_number hn) hc]
  · refine ⟨none, iff_of_false Bool.false_ne_true nofun, ?_⟩
    have hnil : Dimension.unit? [] = some none := rfl
    have hread := Dimension.parse?_number_append hmatched hnil
    rw [List.append_nil] at hread
    rw [hread, decimal, List.takeWhile_eq_self_iff.2 (isNumeric_of_mem_number hmatched)]

/-- **A length that is read is taken**, if it is spelled without blanks, a plus sign and a point that
no digit follows. -/
theorem scan_of_parse? (h : Dimension.parse? cs = some d) (hfree : ∀ c ∈ cs, Text.isBlank c = false)
    (hplus : cs.head? ≠ some '+')
    (hpoint : ∀ front back, cs = front ++ '.' :: back → ∃ c ∈ back.head?, c.isDigit) :
    scan cs = [⟨if d.unit.isSome then .dimension else .number, cs⟩] := by
  obtain ⟨-, -, hunit⟩ := Dimension.parse?_eq_some_iff.1 h
  obtain ⟨sign, body, point, hsign, hbody, hpart, hnumber, -⟩ :=
    Dimension.exists_numeral_of_parse? h
  have htext : cs = Dimension.numberText cs ++ Dimension.suffixText cs := by
    have hfront : Dimension.numberText cs = cs.takeWhile (!Dimension.isSuffixStart ·) := by
      rw [Dimension.numberText, Text.trim_of_free hfree]
      exact Text.trimEnd_eq_self_iff.2 fun c hc =>
        hfree c ((List.takeWhile_sublist _).subset (List.mem_of_mem_getLast? hc))
    rw [hfront, Dimension.suffixText, Text.trim_of_free hfree, List.takeWhile_append_dropWhile]
  have hstart := Dimension.isSuffixStart_of_unit? hunit
  rw [hnumber] at htext
  generalize Dimension.suffixText cs = suffix at htext hunit hstart
  obtain rfl : point = [] := by
    refine hpart.resolve_right fun hpart => ?_
    obtain ⟨c, hc, hdigit⟩ := hpoint (sign ++ body) suffix (by simp [htext, hpart])
    rw [Dimension.isDigit_of_isSuffixStart (hstart c (List.mem_of_mem_head? hc))] at hdigit
    cases hdigit
  have hn : sign ++ body ∈ TokenKind.number.pattern := by
    rw [mem_pattern_number]
    obtain rfl | rfl | rfl := mem_signPattern.1 hsign
    · exact .inl hbody
    · exact absurd (by rw [htext]; rfl) hplus
    · exact .inr ⟨body, hbody, rfl⟩
  rw [List.append_nil] at htext
  obtain ⟨rfl, hnone⟩ | ⟨hmem, hsome⟩ := Dimension.mem_unit_of_unit? hunit
  · rw [hnone, htext, List.append_nil]
    exact scan_of_mem_pattern hn
  · rw [if_pos hsome]
    exact scan_of_mem_pattern (mem_pattern_dimension.2 ⟨_, hn, suffix, hmem, htext⟩)

/-- **The scanner and the parser accept the same lengths.**  A length that is taken is read unless it
is beyond the range, as the decimal it spells, and with a unit just if it is a dimension.  A length
that is read is taken whole, if it is spelled without blanks, a plus sign and a point that no digit
follows. -/
theorem lengths_agree (cs : List Char) :
    (∀ t ∈ scan cs, t.kind = .dimension ∨ t.kind = .number →
      (Dimension.parse? t.text = none ↔ t.decimal.Overflows) ∧
        ∀ d, Dimension.parse? t.text = some d →
          t.decimal.toDouble = .finite d.value ∧ (d.unit.isSome ↔ t.kind = .dimension)) ∧
    (∀ d, Dimension.parse? cs = some d → (∀ c ∈ cs, Text.isBlank c = false) →
      cs.head? ≠ some '+' →
      (∀ front back, cs = front ++ '.' :: back → ∃ c ∈ back.head?, c.isDigit) →
      scan cs = [⟨if d.unit.isSome then .dimension else .number, cs⟩]) := by
  refine ⟨fun t ht hkind => ?_, fun d h hfree hplus hpoint => scan_of_parse? h hfree hplus hpoint⟩
  obtain ⟨u, hu, hread⟩ := parse?_of_isLength ht hkind
  constructor
  · rw [hread, Option.map_eq_none_iff, ← Option.not_isSome_iff_eq_none,
      Decimal.isSome_finite?_toDouble_iff, not_not]
  · intro d hd
    obtain ⟨x, hx, rfl⟩ := Option.map_eq_some_iff.1 (hread.symm.trans hd)
    exact ⟨Double.finite?_eq_some_iff.1 hx, hu⟩

/-- The parser alone accepts a point that no digit follows. -/
example : scan "5.".toList = [⟨.number, ['5']⟩]
    ∧ (Dimension.parse? "5.".toList).map Dimension.unit = some none := by decide +kernel

end Token

end ScreenLayout
