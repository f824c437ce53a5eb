import ScreenLayout.Proofs.Number.Numeral
import ScreenLayout.Proofs.Style.Dimension
import ScreenLayout.Proofs.Text.Bytes
import ScreenLayout.Value.Coercion

/-!
# Proofs/Number/Prefix — the longest numeral at the front of a text

The number a text begins with is read from the longest of its fronts that is a numeral, so a point, a
mark or a sign that no digit follows is left out:

    2.e5   ──▸   2          .5e-x   ──▸   .5          12px   ──▸   12

The front is the same in characters and in bytes, and ends between two characters.

* `IsLongestPrefix` — the longest front of a text in a language.
* `Numeral.prefix_of_numeralPrefix?` — no front that is a numeral goes further.
* `numeralPrefix?_eq_some_iff` — what is taken is the longest numeral.
* `numeralPrefix?_append` — and what follows it changes nothing.
* `leadingNumber?_reads_longest` — the number a text begins with.
-/

namespace ScreenLayout

open Computability Pattern TokenKind Token

/-- **The longest front of a text** in a language. -/
structure IsLongestPrefix {α : Type} (l : Language α) (cs x : List α) : Prop where
  matched : x ∈ l
  at_front : x <+: cs
  longest : ∀ y ∈ l, y <+: cs → y.length ≤ x.length

namespace Numeral

variable {cs x sign body tail rest ds : List Char} {c : Char}

/-! ## Exponents -/

/-- What follows a mark, a sign and digits is part of the exponent as far as it is digits. -/
theorem exponentPart_append_digits {mark : Char} (hmark : isExponentMark mark)
    (hsign : sign ∈ signPattern) (hne : ds ≠ []) (hds : ∀ c ∈ ds, c.isDigit) (rest : List Char) :
    exponentPart (mark :: (sign ++ (ds ++ rest))) = mark :: (sign ++ (ds ++ digits rest)) := by
  have hempty : (ds ++ digits rest).isEmpty = false :=
    List.isEmpty_eq_false_iff.2 (List.append_ne_nil_of_left_ne_nil hne _)
  simp only [exponentPart, splitSign_signed hsign (mem_unsigned_of_isDigit hne hds),
    digits_append_of_all hds, hmark, hempty]
  rfl

/-- **The longest exponent at the front.** -/
theorem prefix_exponentPart (hx : x ∈ exponentPattern) (h : x <+: cs) : x <+: exponentPart cs := by
  obtain ⟨mark, sign, ds, hmark, hsign, hne, hds, rfl⟩ := mem_exponentPattern.1 hx
  obtain ⟨rest, rfl⟩ := h
  rw [List.cons_append, List.append_assoc, exponentPart_append_digits hmark hsign hne hds,
    ← List.append_assoc]
  exact List.prefix_append (mark :: (sign ++ ds)) _

theorem exponentPart_append (htail : tail ∈ exponentPattern) (hrest : EndsDigits rest) :
    exponentPart (tail ++ rest) = tail := by
  obtain ⟨mark, sign, ds, hmark, hsign, hne, hds, rfl⟩ := mem_exponentPattern.1 htail
  rw [List.cons_append, List.append_assoc, exponentPart_append_digits hmark hsign hne hds,
    digits_of_endsDigits hrest, List.append_nil]

theorem endsDigits_append (htail : tail ∈ exponentPattern) (rest : List Char) :
    EndsDigits (tail ++ rest) ∧ ∀ ds, tail ++ rest ≠ '.' :: ds := by
  obtain ⟨mark, cs, rfl, hmark⟩ := exists_cons_of_mem_exponentPattern htail
  exact endsDigits_mark hmark (cs ++ rest)

/-- What is taken for an exponent is one. -/
theorem exponentPart_cases (cs : List Char) :
    exponentPart cs <+: cs ∧ (exponentPart cs = [] ∨ exponentPart cs ∈ exponentPattern) := by
  obtain _ | ⟨mark, cs⟩ := cs
  · exact ⟨List.nil_prefix, .inl rfl⟩
  have htext : (splitSign cs).1 ++ (digits (splitSign cs).2 ++ afterDigits (splitSign cs).2) = cs := by
    rw [digits_append_afterDigits, splitSign_append]
  unfold exponentPart
  dsimp only
  split
  · rename_i hread
    obtain ⟨hmark, hdigits⟩ := Bool.and_eq_true_iff.1 hread
    have hne : digits (splitSign cs).2 ≠ [] :=
      List.isEmpty_eq_false_iff.1 (Bool.not_inj hdigits)
    refine ⟨List.cons_prefix_cons.2 ⟨rfl, ?_⟩, .inr (mem_exponentPattern.2 ?_)⟩
    · conv_rhs => rw [← htext, ← List.append_assoc]
      exact List.prefix_append _ _
    · exact ⟨mark, _, _, hmark, splitSign_mem cs, hne, fun c hc => List.mem_takeWhile_imp hc, rfl⟩
  · exact ⟨List.nil_prefix, .inl rfl⟩

theorem exists_isDigit_of_mem_exponentPattern (hx : x ∈ exponentPattern) :
    ∃ c ∈ x, c.isDigit := by
  obtain ⟨mark, sign, ds, -, -, hne, hds, rfl⟩ := mem_exponentPattern.1 hx
  obtain ⟨c, ds, rfl⟩ := List.exists_cons_of_ne_nil hne
  exact ⟨c, by simp, hds c List.mem_cons_self⟩

/-- No exponent is taken where no digit follows. -/
theorem exponentPart_of_no_digit (h : ∀ c ∈ cs, c.isDigit = false) : exponentPart cs = [] := by
  obtain ⟨hfront, hnil | hmem⟩ := exponentPart_cases cs
  · exact hnil
  obtain ⟨c, hc, hdigit⟩ := exists_isDigit_of_mem_exponentPattern hmem
  exact absurd hdigit (Bool.eq_false_iff.1 (h c (hfront.subset hc)))

theorem exponentPart_of_head (h : ∀ c ∈ cs.head?, isExponentMark c = false) :
    exponentPart cs = [] := by
  obtain _ | ⟨mark, cs⟩ := cs
  · rfl
  · simp only [exponentPart, h mark rfl]
    rfl

/-! ## Fractions -/

/-- No fraction is taken where no digit follows. -/
theorem splitPointDigits_of_no_digit (h : ∀ c ∈ cs, c.isDigit = false) :
    (splitPointDigits cs).1 = [] := by
  obtain ⟨hfront, hnil | hmem⟩ := splitPointDigits_cases cs
  · exact hnil
  obtain ⟨c, hc, hdigit⟩ := exists_isDigit_of_mem_fraction hmem
  exact absurd hdigit (Bool.eq_false_iff.1 (h c (hfront.subset hc)))

theorem splitPointDigits_of_ne (h : ∀ ds, cs ≠ '.' :: ds) : (splitPointDigits cs).1 = [] := by
  unfold splitPointDigits
  split
  · exact absurd rfl (h _)
  · rfl

/-- **A number before what goes on with no digit and no fraction is the longest.** -/
theorem unsignedPart_append (hbody : body ∈ unsigned) (hends : EndsDigits rest)
    (hfraction : (splitPointDigits rest).1 = []) : unsignedPart (body ++ rest) = body := by
  obtain ⟨whole, part, rfl, hwhole, ⟨rfl, -⟩ | hpart⟩ := mem_unsigned.1 hbody
  · rw [unsignedPart, List.append_nil, digits_append hwhole hends, afterDigits_append hwhole hends,
      hfraction, List.append_nil]
  · obtain ⟨ds, hne, hds, rfl⟩ := mem_fraction.1 hpart
    have hpoint : EndsDigits ('.' :: (ds ++ rest)) := by
      rintro c hc
      obtain rfl : '.' = c := Option.some.inj hc
      rfl
    have hempty : ds.isEmpty = false := List.isEmpty_eq_false_iff.2 hne
    have hsplit : (splitPointDigits ('.' :: (ds ++ rest))).1 = '.' :: ds := by
      simp only [splitPointDigits, digits_append hds hends, hempty]
      rfl
    rw [unsignedPart, List.append_assoc, List.cons_append, digits_append hwhole hpoint,
      afterDigits_append hwhole hpoint, hsplit]

/-! ## Numerals -/

/-- What follows the number a text begins with. -/
def afterUnsigned (cs : List Char) : List Char := (splitPointDigits (afterDigits cs)).2

theorem unsignedPart_append_afterUnsigned (cs : List Char) :
    unsignedPart cs ++ afterUnsigned cs = cs := by
  have hpoint : ∀ ds, (splitPointDigits ds).1 ++ (splitPointDigits ds).2 = ds := by
    intro ds
    unfold splitPointDigits
    split
    · split
      · rfl
      · exact congrArg (List.cons '.') (digits_append_afterDigits _)
    · rfl
  rw [unsignedPart, afterUnsigned, List.append_assoc, hpoint, digits_append_afterDigits]

/-- What follows a number that is taken whole. -/
theorem afterUnsigned_append (h : unsignedPart (body ++ rest) = body) :
    afterUnsigned (body ++ rest) = rest := by
  have happend := unsignedPart_append_afterUnsigned (body ++ rest)
  rw [h] at happend
  exact List.append_cancel_left happend

/-- **A numeral is taken** where a number follows the sign. -/
theorem numeralPrefix?_eq (cs : List Char) : numeralPrefix? cs =
    if unsignedPart (splitSign cs).2 = [] then none
    else some ((splitSign cs).1 ++ (unsignedPart (splitSign cs).2 ++
      exponentPart (afterUnsigned (splitSign cs).2))) := by
  simp only [numeralPrefix?, unsignedPart, afterUnsigned, List.append_eq_nil_iff, List.isEmpty_iff,
    Bool.and_eq_true, List.append_assoc]

theorem numeralPrefix?_signed (hsign : sign ∈ signPattern) (hbody : body ∈ unsigned)
    (rest : List Char) : numeralPrefix? (sign ++ (body ++ rest)) =
      some (sign ++ (unsignedPart (body ++ rest) ++ exponentPart (afterUnsigned (body ++ rest)))) := by
  have hne : unsignedPart (body ++ rest) ≠ [] := fun hnil => ne_nil_of_mem_unsigned hbody
    (List.prefix_nil.1 (hnil ▸ prefix_unsignedPart hbody (List.prefix_append body rest)))
  rw [numeralPrefix?_eq, splitSign_signed hsign hbody, if_neg hne]

/-- The parts of a numeral are taken where the number does not go on. -/
theorem numeralPrefix?_of_parts (hsign : sign ∈ signPattern) (hbody : body ∈ unsigned)
    (hends : EndsDigits rest) (hfraction : (splitPointDigits rest).1 = []) :
    numeralPrefix? (sign ++ (body ++ rest)) = some (sign ++ (body ++ exponentPart rest)) := by
  have hpart := unsignedPart_append hbody hends hfraction
  rw [numeralPrefix?_signed hsign hbody, hpart, afterUnsigned_append hpart]

/-- What is taken is a numeral. -/
theorem mem_pattern_of_numeralPrefix? (h : numeralPrefix? cs = some x) : x ∈ pattern ∧ x <+: cs := by
  rw [numeralPrefix?_eq] at h
  obtain ⟨hne, heq⟩ := Option.ite_none_left_eq_some.1 h
  obtain rfl := Option.some.inj heq
  obtain ⟨⟨rest, hrest⟩, htail⟩ := exponentPart_cases (afterUnsigned (splitSign cs).2)
  refine ⟨mem_pattern.2 ⟨_, _, _, splitSign_mem cs, unsignedPart_mem hne, htail, rfl⟩, rest, ?_⟩
  rw [List.append_assoc, List.append_assoc, hrest, unsignedPart_append_afterUnsigned,
    splitSign_append]

/-- **No front that is a numeral goes further** than what is taken. -/
theorem prefix_of_numeralPrefix? (hx : x ∈ pattern) (h : x <+: cs) :
    ∃ y, numeralPrefix? cs = some y ∧ x <+: y := by
  obtain ⟨sign, body, tail, hsign, hbody, htail, rfl⟩ := mem_pattern.1 hx
  obtain ⟨rest, rfl⟩ := h
  rw [List.append_assoc, List.append_assoc]
  obtain rfl | htail := htail
  · refine ⟨_, numeralPrefix?_signed hsign hbody _, (List.prefix_append_right_inj sign).2 ?_⟩
    rw [List.append_nil]
    exact (prefix_unsignedPart hbody (List.prefix_append body _)).trans (List.prefix_append _ _)
  · -- the number ends at the mark
    obtain ⟨hends, hpoint⟩ := endsDigits_append htail rest
    exact ⟨_, numeralPrefix?_of_parts hsign hbody hends (splitPointDigits_of_ne hpoint),
      (List.prefix_append_right_inj sign).2 <| (List.prefix_append_right_inj body).2 <|
        prefix_exponentPart htail (List.prefix_append tail rest)⟩

/-- A text that no numeral before it goes on with. -/
def EndsNumeral (rest : List Char) : Prop :=
  ∀ c ∈ rest.head?, c.isDigit = false ∧ c ≠ '.' ∧ isExponentMark c = false

/-- **What follows a numeral changes nothing**, unless the numeral goes on. -/
theorem numeralPrefix?_append (hx : x ∈ pattern) (hrest : EndsNumeral rest) :
    numeralPrefix? (x ++ rest) = some x := by
  obtain ⟨sign, body, tail, hsign, hbody, htail, rfl⟩ := mem_pattern.1 hx
  have hdigit : EndsDigits rest := fun c hc => (hrest c hc).1
  rw [List.append_assoc, List.append_assoc]
  obtain rfl | htail := htail
  · have hpoint : ∀ ds, rest ≠ '.' :: ds := fun ds heq => (hrest '.' (by rw [heq]; rfl)).2.1 rfl
    rw [List.nil_append, numeralPrefix?_of_parts hsign hbody hdigit (splitPointDigits_of_ne hpoint),
      exponentPart_of_head fun c hc => (hrest c hc).2.2]
  · obtain ⟨hends, hpoint⟩ := endsDigits_append htail rest
    rw [numeralPrefix?_of_parts hsign hbody hends (splitPointDigits_of_ne hpoint),
      exponentPart_append htail hdigit]

theorem ne_nil_of_mem_pattern (hx : x ∈ pattern) : x ≠ [] := by
  obtain ⟨sign, body, tail, -, hbody, -, rfl⟩ := mem_pattern.1 hx
  exact List.append_ne_nil_of_right_ne_nil _
    (List.append_ne_nil_of_left_ne_nil (ne_nil_of_mem_unsigned hbody) _)

theorem numeralPrefix?_self (hx : x ∈ pattern) : numeralPrefix? x = some x := by
  have hnil : EndsNumeral [] := fun c hc => absurd hc (Option.not_mem_none c)
  have h := numeralPrefix?_append hx hnil
  rwa [List.append_nil] at h

end Numeral

open Numeral

variable {cs x : List Char}

/-- **What is taken is the longest numeral.** -/
theorem numeralPrefix?_eq_some_iff :
    numeralPrefix? cs = some x ↔ IsLongestPrefix Numeral.pattern cs x := by
  constructor
  · intro h
    obtain ⟨hmatched, hfront⟩ := mem_pattern_of_numeralPrefix? h
    refine ⟨hmatched, hfront, fun y hy hycs => ?_⟩
    obtain ⟨z, hz, hyz⟩ := prefix_of_numeralPrefix? hy hycs
    obtain rfl : z = x := Option.some.inj (hz.symm.trans h)
    exact hyz.length_le
  · rintro ⟨hmatched, hfront, hlongest⟩
    obtain ⟨y, hy, hxy⟩ := prefix_of_numeralPrefix? hmatched hfront
    obtain ⟨hymatched, hyfront⟩ := mem_pattern_of_numeralPrefix? hy
    rw [hy, hxy.eq_of_length_le (hlongest y hymatched hyfront)]

theorem numeralPrefix?_eq_none_iff :
    numeralPrefix? cs = none ↔ ∀ x ∈ Numeral.pattern, ¬ x <+: cs := by
  constructor
  · intro h x hx hfront
    obtain ⟨y, hy, -⟩ := prefix_of_numeralPrefix? hx hfront
    exact Option.some_ne_none y (hy.symm.trans h)
  · intro h
    refine Option.eq_none_iff_forall_ne_some.2 fun x hx => ?_
    obtain ⟨hmatched, hfront⟩ := mem_pattern_of_numeralPrefix? hx
    exact h x hmatched hfront

/-! ## In bytes -/

theorem Numeral.ascii_of_isNumberChar {c : Char} (hc : isNumberChar c) : c.val ≤ 127 := by
  simp only [isNumberChar, Bool.or_eq_true] at hc
  obtain (halpha | hdigit) | hmark := hc
  · obtain hupper | hlower := Bool.or_eq_true_iff.1 halpha
    · have hZ : c.val ≤ 'Z'.val := (of_decide_eq_true hupper).2
      exact UInt32.le_trans hZ (by decide)
    · have hz : c.val ≤ 'z'.val := of_decide_eq_true (Bool.and_eq_true_iff.1 hlower).2
      exact UInt32.le_trans hz (by decide)
  · have hnine : c.val ≤ '9'.val := of_decide_eq_true (Bool.and_eq_true_iff.1 hdigit).2
    exact UInt32.le_trans hnine (by decide)
  · have hall : numberMarks.all (·.val ≤ 127) := by decide
    exact of_decide_eq_true (List.all_eq_true.1 hall c (List.contains_iff_mem.1 hmark))

/-- The characters of numerals have one byte each. -/
theorem Numeral.bytes_of_mem_pattern (hx : x ∈ Numeral.pattern) :
    Text.bytes (String.ofList x) = x.map Char.toUInt8 :=
  Text.bytes_ofList_of_ascii fun c hc =>
    ascii_of_isNumberChar (Double.isNumberChar_of_parse? (Double.parse?_of_mem_pattern hx) c hc)

/-- **The longest numeral in bytes** is the one in characters. -/
theorem IsLongestPrefix.bytes (h : IsLongestPrefix Numeral.pattern cs x) :
    IsLongestPrefix (Language.map Char.toUInt8 Numeral.pattern) (Text.bytes (String.ofList cs))
      (Text.bytes (String.ofList x)) := by
  refine ⟨⟨x, h.matched, (bytes_of_mem_pattern h.matched).symm⟩,
    Text.bytes_prefix_of_prefix h.at_front, ?_⟩
  rintro _ ⟨y, hy, rfl⟩ hfront
  rw [← bytes_of_mem_pattern hy] at hfront
  have hle := h.longest y hy (Text.prefix_of_bytes_prefix hfront)
  rwa [bytes_of_mem_pattern h.matched, List.length_map, List.length_map]

/-! ## The number a text begins with -/

/-- **The numeral that a number is read from**: the longest front in characters and in bytes, which
ends between two characters and is read as the decimal it spells. -/
structure Numeral.IsReadFrom (cs x : List Char) : Prop where
  taken : numeralPrefix? cs = some x
  longest : IsLongestPrefix Numeral.pattern cs x
  longestBytes : IsLongestPrefix (Language.map Char.toUInt8 Numeral.pattern)
    (Text.bytes (String.ofList cs)) (Text.bytes (String.ofList x))
  boundary : String.Pos.Raw.IsValid (String.ofList cs) ⟨(Text.bytes (String.ofList x)).length⟩
  parsed : Double.parse? x = some (spelled x).toDouble

theorem IsLongestPrefix.isReadFrom (h : IsLongestPrefix Numeral.pattern cs x) :
    Numeral.IsReadFrom cs x where
  taken := numeralPrefix?_eq_some_iff.2 h
  longest := h
  longestBytes := h.bytes
  boundary := Text.isValid_of_prefix h.at_front
  parsed := Double.parse?_of_mem_pattern h.matched

theorem leadingNumber?_of_numeralPrefix? (hx : numeralPrefix? (Text.trimStart cs) = some x) :
    leadingNumber? cs = (spelled x).toDouble.finite? := by
  have hmatched := (mem_pattern_of_numeralPrefix? hx).1
  rw [leadingNumber?, hx, Option.bind_some, FiniteDouble.parse?,
    Double.parse?_of_mem_pattern hmatched, Option.bind_some]

/-- **A text is read from the longest numeral it begins with**, blanks at its front aside: there is
none, and no number, or there is one, and the number is what it spells unless that is beyond the
range.  Where the text is a numeral, what follows it changes nothing. -/
theorem leadingNumber?_reads_longest (cs : List Char) :
    ((∀ x ∈ Numeral.pattern, ¬ x <+: Text.trimStart cs) ∧ leadingNumber? cs = none ∨
      ∃ x, Numeral.IsReadFrom (Text.trimStart cs) x ∧
        leadingNumber? cs = (spelled x).toDouble.finite? ∧
        (leadingNumber? cs = none ↔ (spelled x).Overflows)) ∧
    (Text.trimStart cs ∈ Numeral.pattern → ∀ rest, EndsNumeral rest →
      leadingNumber? (cs ++ rest) = leadingNumber? cs) := by
  refine ⟨?_, fun hnumeral rest hrest => ?_⟩
  · cases hprefix : numeralPrefix? (Text.trimStart cs) with
    | none =>
      refine .inl ⟨numeralPrefix?_eq_none_iff.1 hprefix, ?_⟩
      rw [leadingNumber?, hprefix, Option.bind_none]
    | some x =>
      have hvalue := leadingNumber?_of_numeralPrefix? hprefix
      refine .inr ⟨x, (numeralPrefix?_eq_some_iff.1 hprefix).isReadFrom, hvalue, ?_⟩
      rw [hvalue, ← Option.not_isSome_iff_eq_none, Decimal.isSome_finite?_toDouble_iff, not_not]
  · have hne : Text.trimStart cs ≠ [] := ne_nil_of_mem_pattern hnumeral
    rw [leadingNumber?_of_numeralPrefix? (numeralPrefix?_self hnumeral)]
    refine leadingNumber?_of_numeralPrefix? ?_
    rw [Text.trimStart_append hne]
    exact numeralPrefix?_append hnumeral hrest

/-- A point and a mark that no digit follows are left out. -/
example : numeralPrefix? "2.e5".toList = some ['2']
    ∧ numeralPrefix? "-.5e-x".toList = some ['-', '.', '5']
    ∧ numeralPrefix? "-.".toList = none := by decide +kernel

end ScreenLayout
