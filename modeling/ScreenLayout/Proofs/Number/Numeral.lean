import ScreenLayout.Proofs.Number.Range
import ScreenLayout.Proofs.Style.Munch

/-!
# Proofs/Number/Numeral — numerals and what they spell

A numeral is an optional sign, digits with a point among or before them, and an optional exponent:

    [+-]?([0-9]+(\.[0-9]+)?|\.[0-9]+)([eE][+-]?[0-9]+)?

It spells its digits as a whole number, times the power of ten that the exponent and the digits after
the point leave.  Every numeral is read as the decimal it spells.

* `Numeral.pattern` — the grammar, `Numeral.mem_pattern` its three parts.
* `Numeral.spelled` — the decimal a numeral spells.
* `Double.parse?_of_mem_pattern` — reading a numeral gives the double nearest to what it spells.
* `Double.exists_numeral_of_parse?` — what is read without a letter is a numeral, but for a point at
  its end.
-/

namespace ScreenLayout

open Computability Pattern TokenKind

namespace Numeral

variable {cs sign body tail rest ds : List Char} {c : Char}

/-! ## The grammar -/

def isSign (c : Char) : Bool := c == '+' || c == '-'

/-- A sign or none. -/
def signPattern : Language Char := optional (one isSign)

/-- A mark, an optional sign and digits. -/
def exponentPattern : Language Char := one isExponentMark * (signPattern * many Char.isDigit)

/-- **The numerals.** -/
def pattern : Language Char := signPattern * (unsigned * optional exponentPattern)

theorem mem_exponentPattern : cs ∈ exponentPattern ↔ ∃ mark sign ds, isExponentMark mark ∧
    sign ∈ signPattern ∧ ds ≠ [] ∧ (∀ c ∈ ds, c.isDigit) ∧ cs = mark :: (sign ++ ds) := by
  rw [exponentPattern, mem_one_mul]
  simp only [Language.mem_mul, mem_many]
  constructor
  · rintro ⟨mark, _, rfl, hmark, sign, hsign, ds, ⟨hne, hds⟩, rfl⟩
    exact ⟨mark, sign, ds, hmark, hsign, hne, hds, rfl⟩
  · rintro ⟨mark, sign, ds, hmark, hsign, hne, hds, rfl⟩
    exact ⟨mark, _, rfl, hmark, sign, hsign, ds, ⟨hne, hds⟩, rfl⟩

theorem mem_pattern : cs ∈ pattern ↔ ∃ sign body tail, sign ∈ signPattern ∧ body ∈ unsigned ∧
    (tail = [] ∨ tail ∈ exponentPattern) ∧ cs = sign ++ (body ++ tail) := by
  simp only [pattern, Language.mem_mul, mem_optional]
  constructor
  · rintro ⟨sign, hsign, _, ⟨body, hbody, tail, htail, rfl⟩, rfl⟩
    exact ⟨sign, body, tail, hsign, hbody, htail, rfl⟩
  · rintro ⟨sign, body, tail, hsign, hbody, htail, rfl⟩
    exact ⟨sign, hsign, _, ⟨body, hbody, tail, htail, rfl⟩, rfl⟩

/-- A number with a sign or none is a numeral. -/
theorem mem_pattern_of_unsigned (hsign : sign ∈ signPattern) (hbody : body ∈ unsigned) :
    sign ++ body ∈ pattern :=
  mem_pattern.2 ⟨sign, body, [], hsign, hbody, .inl rfl, by rw [List.append_nil]⟩

/-- Digits spell a number without a sign. -/
theorem mem_unsigned_of_isDigit (hne : ds ≠ []) (hds : ∀ c ∈ ds, c.isDigit) : ds ∈ unsigned :=
  mem_unsigned.2 ⟨ds, [], (List.append_nil ds).symm, hds, .inl ⟨rfl, hne⟩⟩

theorem exists_isDigit_of_mem_fraction (h : cs ∈ fraction) : ∃ c ∈ cs, c.isDigit := by
  obtain ⟨ds, hne, hds, rfl⟩ := mem_fraction.1 h
  obtain ⟨c, ds, rfl⟩ := List.exists_cons_of_ne_nil hne
  exact ⟨c, by simp, hds c List.mem_cons_self⟩

theorem exists_isDigit_of_mem_unsigned (h : cs ∈ unsigned) : ∃ c ∈ cs, c.isDigit := by
  obtain ⟨whole, part, rfl, hwhole, ⟨rfl, hne⟩ | hpart⟩ := mem_unsigned.1 h
  · obtain ⟨c, ds, rfl⟩ := List.exists_cons_of_ne_nil hne
    exact ⟨c, by simp, hwhole c List.mem_cons_self⟩
  · obtain ⟨c, hc, hdigit⟩ := exists_isDigit_of_mem_fraction hpart
    exact ⟨c, List.mem_append_right whole hc, hdigit⟩

/-! ## Signs -/

theorem mem_signPattern : sign ∈ signPattern ↔ sign = [] ∨ sign = ['+'] ∨ sign = ['-'] := by
  have hone : sign ∈ signPattern ↔ sign = [] ∨ ∃ c, isSign c ∧ sign = [c] := Iff.rfl
  simp [hone, isSign, or_and_right, exists_or]

theorem splitSign_mem (cs : List Char) : (splitSign cs).1 ∈ signPattern := by
  rw [mem_signPattern]
  unfold splitSign
  split <;> simp

/-- A number without a sign begins with none. -/
theorem exists_cons_of_mem_unsigned (h : body ∈ unsigned) :
    ∃ c cs, body = c :: cs ∧ c ∉ ['+', '-'] := by
  obtain ⟨c, cs, rfl⟩ := List.exists_cons_of_ne_nil (ne_nil_of_mem_unsigned h)
  refine ⟨c, cs, rfl, ?_⟩
  obtain hdigit | rfl := isDigit_or_point_of_mem_unsigned h c List.mem_cons_self
  · exact Text.not_mem_of_all (by decide) hdigit
  · simp

/-- **The sign before a number is split off.** -/
theorem splitSign_signed (hsign : sign ∈ signPattern) (hbody : body ∈ unsigned)
    (rest : List Char) : splitSign (sign ++ (body ++ rest)) = (sign, body ++ rest) := by
  obtain rfl | rfl | rfl := mem_signPattern.1 hsign
  · obtain ⟨c, cs, rfl, hc⟩ := exists_cons_of_mem_unsigned hbody
    unfold splitSign
    split <;> simp_all
  · rfl
  · rfl

/-! ## What a numeral spells -/

/-- The part of a numeral before its exponent. -/
def significand (x : List Char) : List Char := x.takeWhile (!isExponentMark ·)

/-- What follows the mark of the exponent. -/
def exponentText (x : List Char) : List Char := (x.dropWhile (!isExponentMark ·)).tail

/-- The number of digits after the point. -/
def decimalPlaces (x : List Char) : Nat := (x.dropWhile (· != '.')).countP Char.isDigit

/-- **The decimal a numeral spells**: its digits, the exponent lowered by the places after the point. -/
def spelled (x : List Char) : Decimal where
  negative := x.head? = some '-'
  coefficient := Nat.ofDigitChars 10 ((significand x).filter Char.isDigit) 0
  exponent := signedValue (splitSign (exponentText x)).1 (splitSign (exponentText x)).2
    - decimalPlaces (significand x)

/-- A text that goes on with no digit. -/
def EndsDigits (rest : List Char) : Prop := ∀ c ∈ rest.head?, c.isDigit = false

theorem digits_of_endsDigits (h : EndsDigits rest) : digits rest = [] := by
  cases rest with
  | nil => rfl
  | cons c cs => exact List.takeWhile_cons_of_neg (Bool.eq_false_iff.1 (h c rfl))

theorem afterDigits_of_endsDigits (h : EndsDigits rest) : afterDigits rest = rest := by
  cases rest with
  | nil => rfl
  | cons c cs => exact List.dropWhile_cons_of_neg (Bool.eq_false_iff.1 (h c rfl))

theorem digits_append (hds : ∀ c ∈ ds, c.isDigit) (h : EndsDigits rest) :
    digits (ds ++ rest) = ds := by
  rw [digits_append_of_all hds, digits_of_endsDigits h, List.append_nil]

theorem afterDigits_append (hds : ∀ c ∈ ds, c.isDigit) (h : EndsDigits rest) :
    afterDigits (ds ++ rest) = rest := by
  rw [afterDigits_append_of_all hds, afterDigits_of_endsDigits h]

/-- A fraction is read after a point, and there is none otherwise. -/
theorem splitFraction_cases (cs : List Char) :
    (∃ ds, cs = '.' :: ds ∧ splitFraction cs = (digits ds, afterDigits ds)) ∨
      splitFraction cs = ([], cs) := by
  unfold splitFraction
  split
  · rename_i ds
    exact .inl ⟨ds, rfl, rfl⟩
  · exact .inr rfl

theorem splitFraction_of_ne (h : ∀ cs, rest ≠ '.' :: cs) : splitFraction rest = ([], rest) := by
  obtain ⟨ds, rfl, -⟩ | hnone := splitFraction_cases rest
  · exact absurd rfl (h ds)
  · exact hnone

theorem bne_point_of_isDigit (hc : c.isDigit) : (c != '.') = true := by
  refine bne_iff_ne.2 ?_
  rintro rfl
  cases hc

/-- **A number without a sign is read as its digits and places**, and what follows as its exponent. -/
theorem decimal?_append (hbody : body ∈ unsigned) (hrest : EndsDigits rest)
    (hpoint : ∀ cs, rest ≠ '.' :: cs) (negative : Bool) :
    decimal? negative (body ++ rest) = (exponent? rest).map fun e =>
      ⟨negative, Nat.ofDigitChars 10 (body.filter Char.isDigit) 0, e - decimalPlaces body⟩ := by
  obtain ⟨whole, part, rfl, hwhole, ⟨rfl, hne⟩ | hpart⟩ := mem_unsigned.1 hbody
  · have hplaces : decimalPlaces whole = 0 := by
      rw [decimalPlaces, List.dropWhile_eq_nil_iff.2 fun c hc => bne_point_of_isDigit (hwhole c hc)]
      rfl
    have hempty : whole.isEmpty = false := List.isEmpty_eq_false_iff.2 hne
    simp only [decimal?, List.append_nil, digits_append hwhole hrest,
      afterDigits_append hwhole hrest, splitFraction_of_ne hpoint, hempty, hplaces,
      List.filter_eq_self.2 hwhole]
    rfl
  · obtain ⟨ds, hne, hds, rfl⟩ := mem_fraction.1 hpart
    have hend : EndsDigits ('.' :: (ds ++ rest)) := by
      rintro c hc
      obtain rfl : '.' = c := Option.some.inj hc
      rfl
    have hfraction : splitFraction ('.' :: (ds ++ rest)) = (ds, rest) :=
      Prod.ext (digits_append hds hrest) (afterDigits_append hds hrest)
    have hplaces : decimalPlaces (whole ++ '.' :: ds) = ds.length := by
      rw [decimalPlaces, List.dropWhile_append_of_pos
        fun c hc => bne_point_of_isDigit (hwhole c hc)]
      exact List.countP_eq_length.2 hds
    have hfilter : (whole ++ '.' :: ds).filter Char.isDigit = whole ++ ds := by
      rw [List.filter_append, List.filter_eq_self.2 hwhole, List.filter_cons_of_neg (by decide),
        List.filter_eq_self.2 hds]
    have hempty : ds.isEmpty = false := List.isEmpty_eq_false_iff.2 hne
    simp only [decimal?, List.append_assoc, List.cons_append, digits_append hwhole hend,
      afterDigits_append hwhole hend, hfraction, hempty, Bool.and_false, hfilter, hplaces]
    rfl

theorem isExponentMark_of_isDigit (hc : c.isDigit) : isExponentMark c = false := by
  have hmark : c ∉ ['e', 'E'] := Text.not_mem_of_all (by decide) hc
  simpa [isExponentMark] using hmark

theorem isExponentMark_of_mem_unsigned (h : body ∈ unsigned) :
    ∀ c ∈ body, isExponentMark c = false := by
  intro c hc
  obtain hdigit | rfl := isDigit_or_point_of_mem_unsigned h c hc
  · exact isExponentMark_of_isDigit hdigit
  · rfl

/-- **The exponent of a numeral is read** as the sign and the digits after its mark. -/
theorem exponent?_of_mem (htail : tail = [] ∨ tail ∈ exponentPattern) :
    exponent? tail = some (signedValue (splitSign tail.tail).1 (splitSign tail.tail).2) := by
  obtain rfl | htail := htail
  · rfl
  obtain ⟨mark, sign, ds, hmark, hsign, hne, hds, rfl⟩ := mem_exponentPattern.1 htail
  have hsplit : splitSign (sign ++ ds) = (sign, ds) := by
    have h := splitSign_signed hsign (mem_unsigned_of_isDigit hne hds) []
    rwa [List.append_nil] at h
  have hempty : ds.isEmpty = false := List.isEmpty_eq_false_iff.2 hne
  simp only [exponent?, List.tail_cons, hsplit, hmark, hempty, List.all_eq_true.2 hds]
  rfl

theorem exists_cons_of_mem_exponentPattern (h : tail ∈ exponentPattern) :
    ∃ mark cs, tail = mark :: cs ∧ isExponentMark mark := by
  obtain ⟨mark, sign, ds, hmark, -, -, -, rfl⟩ := mem_exponentPattern.1 h
  exact ⟨mark, _, rfl, hmark⟩

/-- A mark is no digit and no point. -/
theorem endsDigits_mark {mark : Char} (hmark : isExponentMark mark) (cs : List Char) :
    EndsDigits (mark :: cs) ∧ ∀ ds, mark :: cs ≠ '.' :: ds := by
  refine ⟨fun c hc => ?_, fun ds heq => ?_⟩
  · obtain rfl : mark = c := Option.some.inj hc
    refine Bool.eq_false_iff.2 fun hdigit => ?_
    rw [isExponentMark_of_isDigit hdigit] at hmark
    cases hmark
  · rw [(List.cons.inj heq).1] at hmark
    cases hmark

theorem endsDigits_nil : EndsDigits [] := fun c hc => absurd hc (Option.not_mem_none c)

/-- What follows the number of a numeral goes on with no digit and no point. -/
theorem endsDigits_of_mem (htail : tail = [] ∨ tail ∈ exponentPattern) :
    EndsDigits tail ∧ ∀ ds, tail ≠ '.' :: ds := by
  obtain rfl | htail := htail
  · exact ⟨endsDigits_nil, fun ds => (List.cons_ne_nil '.' ds).symm⟩
  · obtain ⟨mark, cs, rfl, hmark⟩ := exists_cons_of_mem_exponentPattern htail
    exact endsDigits_mark hmark cs

/-- Where the exponent of a numeral starts. -/
theorem significand_append (hsign : sign ∈ signPattern) (hbody : body ∈ unsigned)
    (htail : tail = [] ∨ tail ∈ exponentPattern) :
    significand (sign ++ (body ++ tail)) = sign ++ body ∧
      exponentText (sign ++ (body ++ tail)) = tail.tail := by
  have hfront : ∀ c ∈ sign ++ body, (!isExponentMark c) = true := by
    refine List.forall_mem_append.2 ⟨fun c hc => ?_, fun c hc => ?_⟩
    · obtain rfl | rfl | rfl := mem_signPattern.1 hsign
      · cases hc
      · rw [List.mem_singleton.1 hc]; rfl
      · rw [List.mem_singleton.1 hc]; rfl
    · rw [isExponentMark_of_mem_unsigned hbody c hc]; rfl
  have hback : tail.takeWhile (!isExponentMark ·) = [] ∧ tail.dropWhile (!isExponentMark ·) = tail := by
    obtain rfl | htail := htail
    · exact ⟨rfl, rfl⟩
    obtain ⟨mark, cs, rfl, hmark⟩ := exists_cons_of_mem_exponentPattern htail
    have hstop : ¬ (!isExponentMark mark) = true := by rw [hmark]; exact Bool.false_ne_true
    exact ⟨List.takeWhile_cons_of_neg hstop, List.dropWhile_cons_of_neg hstop⟩
  rw [← List.append_assoc, significand, exponentText, List.takeWhile_append_of_pos hfront,
    List.dropWhile_append_of_pos hfront, hback.1, hback.2, List.append_nil]
  exact ⟨rfl, rfl⟩

/-- **The decimal a numeral spells, by its parts.** -/
theorem spelled_append (hsign : sign ∈ signPattern) (hbody : body ∈ unsigned)
    (htail : tail = [] ∨ tail ∈ exponentPattern) : spelled (sign ++ (body ++ tail)) =
      ⟨decide (sign = ['-']), Nat.ofDigitChars 10 (body.filter Char.isDigit) 0,
        signedValue (splitSign tail.tail).1 (splitSign tail.tail).2 - decimalPlaces body⟩ := by
  obtain ⟨hsignificand, hexponent⟩ := significand_append hsign hbody htail
  obtain ⟨c, cs, hcons, hc⟩ := exists_cons_of_mem_unsigned hbody
  have hminus : c ≠ '-' := fun heq => hc (by simp [heq])
  rw [spelled, hsignificand, hexponent]
  obtain rfl | rfl | rfl := mem_signPattern.1 hsign
  · simp [hcons, hminus]
  · simp [decimalPlaces]
  · simp [decimalPlaces]

end Numeral

open Numeral

/-! ## Numerals read -/

/-- **A numeral is read as the decimal it spells.** -/
theorem Double.parse?_of_mem_pattern {x : List Char} (hx : x ∈ Numeral.pattern) :
    Double.parse? x = some (spelled x).toDouble := by
  obtain ⟨sign, body, tail, hsign, hbody, htail, rfl⟩ := mem_pattern.1 hx
  obtain ⟨hends, hpoint⟩ := endsDigits_of_mem htail
  obtain ⟨c, cs, rfl⟩ := List.exists_cons_of_ne_nil (ne_nil_of_mem_unsigned hbody)
  have halpha : c.isAlpha = false := by
    obtain hdigit | rfl := isDigit_or_point_of_mem_unsigned hbody c List.mem_cons_self
    · exact isAlpha_of_isDigit hdigit
    · rfl
  unfold Double.parse?
  rw [splitSign_signed hsign hbody, spelled_append hsign hbody htail]
  dsimp only
  rw [decimal?_append hbody hends hpoint, exponent?_of_mem htail, List.cons_append,
    word?_eq_none_of_head halpha]
  rfl

/-! ## Texts without a letter -/

section Letterless

variable {n sign whole cs : List Char}

theorem Numeral.word?_eq_none_of_letterless (h : ∀ c ∈ cs, c.isAlpha = false) (negative : Bool) :
    word? negative cs = none := by
  obtain _ | ⟨c, cs⟩ := cs
  · exact Eq.refl none
  · exact word?_eq_none_of_head (h c List.mem_cons_self) negative cs

/-- A text without a letter has no exponent. -/
theorem Numeral.eq_nil_of_exponent? {e : Int} (h : exponent? cs = some e)
    (hletters : ∀ c ∈ cs, c.isAlpha = false) : cs = [] := by
  obtain _ | ⟨mark, cs⟩ := cs
  · rfl
  obtain ⟨hread, -⟩ := Option.ite_none_right_eq_some.1 h
  simp only [Bool.and_eq_true] at hread
  obtain ⟨⟨hmark, -⟩, -⟩ := hread
  have halpha := hletters mark List.mem_cons_self
  obtain hmark | hmark := Bool.or_eq_true_iff.1 hmark
  · rw [eq_of_beq hmark] at halpha
    cases halpha
  · rw [eq_of_beq hmark] at halpha
    cases halpha

/-- **A number without an exponent** is a number without a sign, perhaps with a point after it. -/
theorem Numeral.exists_unsigned_of_decimal? {negative : Bool} {d : Decimal}
    (h : decimal? negative cs = some d) (hletters : ∀ c ∈ cs, c.isAlpha = false) :
    cs ∈ unsigned ∨ ∃ ds, ds ≠ [] ∧ (∀ c ∈ ds, c.isDigit) ∧ cs = ds ++ ['.'] := by
  obtain ⟨hne, hread⟩ := Option.ite_none_left_eq_some.1 h
  obtain ⟨e, he, -⟩ := Option.map_eq_some_iff.1 hread
  change ¬ ((digits cs).isEmpty && (splitFraction (afterDigits cs)).1.isEmpty) = true at hne
  change exponent? (splitFraction (afterDigits cs)).2 = some e at he
  have hwhole : ∀ c ∈ digits cs, c.isDigit := fun c hc => List.mem_takeWhile_imp hc
  have htext := digits_append_afterDigits cs
  have hback : ∀ c ∈ afterDigits cs, c.isAlpha = false := fun c hc =>
    hletters c ((List.dropWhile_sublist _).subset hc)
  generalize digits cs = whole at hne hwhole htext
  generalize afterDigits cs = back at hne he htext hback
  subst htext
  obtain ⟨ds, rfl, hsplit⟩ | hsplit := splitFraction_cases back
  · rw [hsplit] at hne he
    have hafter : afterDigits ds = [] := eq_nil_of_exponent? he fun c hc =>
      hback c (List.mem_cons_of_mem _ ((List.dropWhile_sublist _).subset hc))
    have hfraction : ∀ c ∈ ds, c.isDigit := List.dropWhile_eq_nil_iff.1 hafter
    by_cases hempty : ds = []
    · subst hempty
      refine .inr ⟨whole, fun hnil => hne ?_, hwhole, rfl⟩
      rw [hnil]
      rfl
    · exact .inl (mem_unsigned.2 ⟨whole, _, rfl, hwhole, .inr (mem_fraction.2
        ⟨ds, hempty, hfraction, rfl⟩)⟩)
  · rw [hsplit] at hne he
    obtain rfl : back = [] := eq_nil_of_exponent? he hback
    refine .inl (mem_unsigned.2 ⟨whole, [], rfl, hwhole, .inl ⟨rfl, fun hnil => hne ?_⟩⟩)
    rw [hnil]
    rfl

/-- **A point after a whole number changes nothing.** -/
theorem Double.parse?_append_point (hsign : sign ∈ signPattern) (hne : whole ≠ [])
    (hwhole : ∀ c ∈ whole, c.isDigit) :
    Double.parse? (sign ++ (whole ++ ['.'])) = Double.parse? (sign ++ whole) := by
  have hbody := mem_unsigned_of_isDigit hne hwhole
  have hletters : ∀ c ∈ whole, c.isAlpha = false := fun c hc => isAlpha_of_isDigit (hwhole c hc)
  have hsplit := splitSign_signed hsign hbody []
  rw [List.append_nil] at hsplit
  unfold Double.parse?
  rw [splitSign_signed hsign hbody, hsplit]
  dsimp only
  rw [word?_eq_none_of_letterless hletters, decimal?_digits hne hwhole,
    decimal?_point hne hwhole (fun c hc => absurd hc List.not_mem_nil), List.append_nil,
    word?_eq_none_of_letterless]
  · rfl
  · exact List.forall_mem_append.2 ⟨hletters, fun c hc => by rw [List.mem_singleton.1 hc]; rfl⟩

/-- **A number without a letter is a numeral**, perhaps with a point after it. -/
theorem Double.exists_numeral_of_parse? {y : Double} (h : Double.parse? n = some y)
    (hletters : ∀ c ∈ n, c.isAlpha = false) :
    ∃ sign body point, sign ∈ signPattern ∧ body ∈ unsigned ∧ (point = [] ∨ point = ['.']) ∧
      n = sign ++ (body ++ point) ∧ y = (spelled (sign ++ body)).toDouble := by
  have htext := splitSign_append n
  have hsign := splitSign_mem n
  have hback : ∀ c ∈ (splitSign n).2, c.isAlpha = false := fun c hc =>
    hletters c (htext ▸ List.mem_append_right _ hc)
  have hread : (decimal? (decide ((splitSign n).1 = ['-'])) (splitSign n).2).map Decimal.toDouble
      = some y := by
    unfold Double.parse? at h
    dsimp only at h
    rwa [word?_eq_none_of_letterless hback] at h
  obtain ⟨d, hd, -⟩ := Option.map_eq_some_iff.1 hread
  generalize (splitSign n).1 = sign at htext hsign
  generalize (splitSign n).2 = back at htext hback hd
  subst htext
  obtain hbody | ⟨ds, hne, hds, rfl⟩ := exists_unsigned_of_decimal? hd hback
  · have hvalue := Double.parse?_of_mem_pattern (mem_pattern_of_unsigned hsign hbody)
    exact ⟨sign, back, [], hsign, hbody, .inl rfl, by rw [List.append_nil],
      Option.some.inj (h.symm.trans hvalue)⟩
  · have hbody := mem_unsigned_of_isDigit hne hds
    have hvalue := Double.parse?_of_mem_pattern (mem_pattern_of_unsigned hsign hbody)
    rw [Double.parse?_append_point hsign hne hds] at h
    exact ⟨sign, ds, ['.'], hsign, hbody, .inr rfl, rfl, Option.some.inj (h.symm.trans hvalue)⟩

end Letterless

/-- A numeral without a mark, and one with a point before all its digits. -/
example : spelled "-12.50e-3".toList = ⟨true, 1250, -5⟩ ∧ spelled ".5".toList = ⟨false, 5, -1⟩ := by
  decide +kernel

end ScreenLayout
