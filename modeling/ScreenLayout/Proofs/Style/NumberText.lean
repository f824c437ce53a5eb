import ScreenLayout.Proofs.Style.Finite
import ScreenLayout.Proofs.Style.LengthReaders
import ScreenLayout.Proofs.Style.Merge
import ScreenLayout.Proofs.Style.PropertyName

/-!
# Proofs/Style/NumberText — a number and the text that spells it

A rule for lengths or plain numbers takes a number as it is and a text through a reader of its own:
as a word, as tokens, as a dimension, as a plain number, or by its front.  The plain form of a number
has no blank, letter, slash or exponent, so all of them read the number back from it:

    {padding: 0.5}   {padding: "0.5"}   ──▸   one style

Only the sign of zero is lost, and doubles do not tell the two zeros apart.

* `Double.Equal` — doubles that compare equal; `Style.SameBy` — styles that differ in related doubles
  only.
* `FiniteDouble.exists_plain_eq` — a text that spells a number reads back exactly to one equal to it.
* `Rule.patch_number`, `Rule.patch_plain` — what a numeric rule writes for either.
* `compile_sameBy` — entries that write the same, one for one, compile to the same.
* `compile_number_text` — a number and its text compile alike.
-/

namespace ScreenLayout

/-! ## Doubles that compare equal -/

namespace Double

/-- **Doubles that compare equal**: the two zeros do, and nothing equals `nan`. -/
def Equal : Double → Double → Prop
  | .finite x, .finite y => x.signed = y.signed
  | .infinite s, .infinite t => s = t
  | _, _ => False

/-- Equal doubles lie on one side of any bound. -/
theorem le_congr_right {x y : FiniteDouble} (h : x.signed = y.signed) (bound : Double) :
    le bound x = le bound y := by
  cases bound with
  | finite b =>
    have hiff : b ≤ x ↔ b ≤ y := by
      change b.signed ≤ x.signed ↔ b.signed ≤ y.signed
      rw [h]
    exact decide_eq_decide.2 hiff
  | infinite s => cases s <;> rfl
  | nan => rfl

theorem Equal.refl {x : Double} (hx : x ≠ .nan) : x.Equal x := by
  cases x with
  | finite x => exact Eq.refl x.signed
  | infinite s => exact Eq.refl s
  | nan => exact absurd rfl hx

/-- **Doubles that are the same or compare equal.** -/
def Same (x y : Double) : Prop := x = y ∨ x.Equal y

end Double

namespace FiniteDouble

variable {x y : FiniteDouble}

/-- Doubles of one signed count differ in the sign of zero at most. -/
theorem eq_or_zero_of_signed_eq (h : x.signed = y.signed) : x = y ∨ x.units = 0 ∧ y.units = 0 := by
  obtain ⟨negative, units, hx⟩ := x
  obtain ⟨negative', units', hy⟩ := y
  simp only [signed] at h
  rw [FiniteDouble.mk.injEq]
  split at h <;> split at h <;> simp_all only [true_and] <;> omega

/-- Either zero is spelled `0`. -/
theorem plain_of_units_eq_zero (h : x.units = 0) : x.plain = ['0'] := by
  rw [plain, isZero, h]
  rfl

/-- **Equal doubles have one plain form.** -/
theorem plain_eq_of_signed_eq (h : x.signed = y.signed) : x.plain = y.plain := by
  obtain rfl | ⟨hx, hy⟩ := eq_or_zero_of_signed_eq h
  · rfl
  · rw [plain_of_units_eq_zero hx, plain_of_units_eq_zero hy]

/-- **A text that spells a number** reads back exactly to one equal to it. -/
theorem exists_plain_eq (x : FiniteDouble) :
    ∃ y, x.signed = y.signed ∧ x.plain = y.plain ∧ parse? y.plain = some y := by
  obtain ⟨y, hread, hsigned⟩ := x.exists_parse?_plain
  have hplain := plain_eq_of_signed_eq hsigned.symm
  exact ⟨y, hsigned.symm, hplain, hplain ▸ hread⟩

end FiniteDouble

/-- Zero over a number is zero. -/
theorem Double.div_of_units_eq_zero {x y : FiniteDouble} (hx : x.units = 0)
    (hy : 0 < y.units) : ∃ a, div x y = .finite a ∧ a.units = 0 := by
  have hnonzero : y.isZero = false := beq_eq_false_iff_ne.2 hy.ne'
  have hround : Units.round (x.units * Units.perOne) y.units = 0 := by
    rw [hx, Nat.zero_mul]
    exact Units.round_eq_zero (by omega)
  have hlimit : Units.round (x.units * Units.perOne) y.units < Units.limit := by
    rw [hround]
    exact Units.twoPow_pos _
  refine ⟨⟨x.negative ^^ y.negative, _, Units.representable_round hlimit⟩, ?_, hround⟩
  rw [div, hnonzero, if_neg Bool.false_ne_true, ofRatio, dif_pos hlimit]

/-- A hundredth of equal doubles is equal. -/
theorem exists_ofPercent_of_signed_eq {x y : FiniteDouble} (h : x.signed = y.signed) :
    ∃ a b, ofPercent x = .finite a ∧ ofPercent y = .finite b ∧ a.signed = b.signed := by
  obtain rfl | ⟨hx, hy⟩ := FiniteDouble.eq_or_zero_of_signed_eq h
  · obtain ⟨a, ha⟩ := Double.isFinite_iff.1 (isFinite_ofPercent x)
    exact ⟨a, a, ha, ha, rfl⟩
  · have hhundred : 0 < (FiniteDouble.ofUInt64 100).units :=
      Nat.lt_of_lt_of_le (Nat.mul_pos Nat.two_pos Units.perOne_pos)
        FiniteDouble.two_le_units_hundred
    obtain ⟨a, ha, hazero⟩ := Double.div_of_units_eq_zero hx hhundred
    obtain ⟨b, hb, hbzero⟩ := Double.div_of_units_eq_zero hy hhundred
    have hsigned : ∀ {z : FiniteDouble}, z.units = 0 → z.signed = 0 := fun {z} hz => by
      rw [FiniteDouble.signed, hz]
      exact ite_self 0
    exact ⟨a, b, ha, hb, (hsigned hazero).trans (hsigned hbzero).symm⟩

/-! ## Styles side by side -/

/-- **Values that differ in related doubles only.** -/
inductive StyleValue.SameBy (r : Double → Double → Prop) : StyleValue → StyleValue → Prop
  | number {x y : Double} (h : r x y) : SameBy r (number x) (number y)
  | offset {x y x' y' : Double} (hx : r x x') (hy : r y y') : SameBy r (offset x y) (offset x' y')
  | text (s : String) : SameBy r (text s) (text s)
  | list (items : List String) : SameBy r (list items) (list items)
  | json (v : Json) : SameBy r (json v) (json v)

/-- **Properties of one name** whose values differ in related doubles only. -/
def SameProperty (r : Double → Double → Prop) (a b : String × StyleValue) : Prop :=
  a.1 = b.1 ∧ a.2.SameBy r b.2

/-- **Patches that differ in related doubles only.** -/
structure StylePatch.SameBy (r : Double → Double → Prop) (p q : StylePatch) : Prop where
  writes : List.Forall₂ (SameProperty r) p.writes q.writes
  gradient : p.gradient = q.gradient

/-- **Styles that differ in related doubles only.** -/
structure Style.SameBy (r : Double → Double → Prop) (s t : Style) : Prop where
  entries : List.Forall₂ (SameProperty r) s.properties.entries t.properties.entries
  gradient : s.gradient = t.gradient

section SideBySide

variable {r : Double → Double → Prop}

theorem StylePatch.sameBy_one (name : String) {v w : StyleValue} (h : v.SameBy r w) :
    (one name v).SameBy r (one name w) :=
  ⟨.cons ⟨rfl, h⟩ .nil, rfl⟩

/-- Writing keeps styles side by side. -/
theorem Style.sameBy_apply {s t : Style} {p q : StylePatch} (hs : s.SameBy r t)
    (hp : p.SameBy r q) : (s.apply p).SameBy r (t.apply q) where
  entries := Properties.forall₂_insertMany (fun h => h.1) hp.writes hs.entries
  gradient := by rw [apply, apply, hp.gradient, hs.gradient]

/-- **Entries that write the same, one for one, compile to the same.** -/
theorem compile_sameBy {c : Config} {d e : List (String × Json)}
    (h : List.Forall₂ (fun a b => (compileEntry c a).patch.SameBy r (compileEntry c b).patch) d e) :
    (compile c d).style.SameBy r (compile c e).style := by
  rw [style_compile_eq_foldl, style_compile_eq_foldl]
  have hrun : ∀ {s t : Style}, s.SameBy r t →
      (d.foldl (fun s entry => s.apply (compileEntry c entry).patch) s).SameBy r
        (e.foldl (fun s entry => s.apply (compileEntry c entry).patch) t) := by
    induction h with
    | nil => exact id
    | @cons a b d e hhead _ ih => exact fun hs => ih (Style.sameBy_apply hs hhead)
  exact hrun ⟨.nil, rfl⟩

end SideBySide

/-! ## The readers of a plain number -/

theorem Digits.positional_mem_unsigned {d : Digits} (hne : d.digits ≠ [])
    (hd : ∀ c ∈ d.digits, c.isDigit) : d.positional ∈ TokenKind.unsigned := by
  obtain ⟨ds, zeros | k⟩ := d
  · exact Numeral.mem_unsigned_of_isDigit (List.append_ne_nil_of_left_ne_nil hne _)
      (List.forall_mem_append.2 ⟨hd, Numeral.isDigit_of_mem_zeros zeros⟩)
  · unfold positional
    dsimp only at hne hd ⊢
    split
    · rename_i hinside
      refine TokenKind.mem_unsigned.2 ⟨_, _, rfl, fun c hc => hd c (List.mem_of_mem_take hc),
        .inr (TokenKind.mem_fraction.2 ⟨_, fun hnil => ?_,
          fun c hc => hd c (List.mem_of_mem_drop hc), rfl⟩)⟩
      have hlength := congrArg List.length hnil
      rw [List.length_drop, List.length_nil] at hlength
      omega
    · exact TokenKind.mem_unsigned.2 ⟨['0'], _, rfl, Numeral.isDigit_of_mem_zeros 1,
        .inr (TokenKind.mem_fraction.2 ⟨_, List.append_ne_nil_of_right_ne_nil _ hne,
          List.forall_mem_append.2 ⟨Numeral.isDigit_of_mem_zeros _, hd⟩, rfl⟩)⟩

/-- **The plain form is a number token.** -/
theorem FiniteDouble.plain_mem_number (x : FiniteDouble) :
    x.plain ∈ TokenKind.number.pattern := by
  rw [TokenKind.mem_pattern_number]
  unfold plain
  split
  · exact .inl (Numeral.mem_unsigned_of_isDigit (List.cons_ne_nil _ _)
      (Numeral.isDigit_of_mem_zeros 1))
  · rename_i hx
    have hbody := Digits.positional_mem_unsigned (digits_ne_nil .up (Bool.eq_false_iff.2 hx))
      (isDigit_of_mem_digits .up x)
    generalize (x.digits .up).positional = body at hbody
    unfold signText
    split
    · exact .inr ⟨body, hbody, rfl⟩
    · exact .inl hbody

/-- No word without a digit is a number. -/
theorem FiniteDouble.sameAscii_plain (x : FiniteDouble) {word : List Char}
    (hword : (Text.lowerAscii word).all (!Char.isDigit ·)) : Text.sameAscii x.plain word = false := by
  refine beq_eq_false_iff_ne.2 fun heq => ?_
  obtain ⟨c, hc, hdigit⟩ := x.exists_isDigit_mem_plain
  rw [← Dimension.lowerAscii_plain, heq] at hc
  rw [Text.eq_false_of_all hword hc] at hdigit
  cases hdigit

theorem FiniteDouble.trim_plain (x : FiniteDouble) : Text.trim x.plain = x.plain :=
  Text.trim_of_free (Dimension.isBlank_of_mem_plain x)

theorem FiniteDouble.words_plain (x : FiniteDouble) : Text.words x.plain = [x.plain] :=
  Text.words_of_free x.plain_ne_nil (Dimension.isBlank_of_mem_plain x)

theorem FiniteDouble.slash_not_mem_plain (x : FiniteDouble) : '/' ∉ x.plain := by
  intro hslash
  obtain hdigit | hmark := x.mem_plain '/' hslash
  · cases hdigit
  · exact absurd hmark (by decide)

section Readers

variable {x : FiniteDouble} (hx : FiniteDouble.parse? x.plain = some x)
include hx

/-- **As a dimension** it has no unit. -/
theorem Dimension.parse?_plain : parse? x.plain = some ⟨x, none⟩ := by
  have hnil : ∀ c ∈ ([] : List Char), isSuffixStart c := fun c hc => absurd hc List.not_mem_nil
  have hread : parse? (x.plain ++ []) = some ⟨x, none⟩ :=
    (parse?_append_eq_some_iff (isSuffixStart_of_mem_plain x) (isBlank_of_mem_plain x) hnil).2
      ⟨x.exists_isDigit_mem_plain, hx, rfl⟩
  rwa [List.append_nil] at hread

/-- **As a word** it is a length. -/
theorem StyleValue.lengthPart?_plain : lengthPart? x.plain = some (number x) := by
  rw [lengthPart?, x.trim_plain, x.sameAscii_plain (by decide), if_neg Bool.false_ne_true,
    Dimension.parse?_plain hx]
  rfl

/-- **As a plain number** it is no ratio. -/
theorem unitlessNumber?_plain : unitlessNumber? x.plain = some (.finite x) := by
  rw [unitlessNumber?, ratio?, Text.splitOnce?_eq_none_iff.2 x.slash_not_mem_plain, x.trim_plain, hx]
  rfl

/-- **By its front** it is the whole text. -/
theorem toNumber?_plain : Json.toNumber? (.string (String.ofList x.plain)) = some x := by
  have hread := Dimension.leadingNumber?_of_parse? (Dimension.parse?_plain hx)
  rwa [← String.toList_ofList (l := x.plain)] at hread

/-- **As tokens** it is a width alone. -/
theorem borderParts_plain :
    Shorthand.BorderParts.ofTokens (Token.scan x.plain) = ⟨some x, none, none⟩ := by
  have hlength : Token.length? ⟨.number, x.plain⟩ = some x := by
    rw [Token.length?, if_pos (.inr rfl), Dimension.parse?_plain hx]
    rfl
  rw [Token.scan_of_mem_pattern x.plain_mem_number]
  simp [Shorthand.BorderParts.ofTokens, hlength, Token.color?, Token.isColor, Shorthand.lineStyle?]

theorem boxOfText_plain (name : String) :
    Shorthand.boxOfText name x.plain = .ok (.one name (.number x)) := by
  simp [Shorthand.boxOfText, x.words_plain, StyleValue.lengthPart?_plain hx, Shorthand.boxWrites,
    StylePatch.one]

theorem borderOfText_plain (side : String) :
    Shorthand.borderOfText side x.plain = .ok (.one (Shorthand.widthName side) (.number x)) := by
  have hnone : Text.sameAscii x.plain "none".toList = false := x.sameAscii_plain (by decide)
  rw [Shorthand.borderOfText, hnone, if_neg Bool.false_ne_true, borderParts_plain hx]
  simp [Shorthand.BorderParts.isEmpty, Shorthand.BorderParts.writes, StylePatch.one]

theorem radiusOfText_plain (c : Config) :
    Shorthand.radiusOfText c x.plain = .ok (Shorthand.roundedRadius c x) := by
  have hsingle : ¬ (1 < (Text.words x.plain).length ∨ x.plain.contains '/') := by
    simp [x.words_plain, x.slash_not_mem_plain]
  rw [Shorthand.radiusOfText, if_neg hsingle, Dimension.parse?_plain hx]
  rfl

end Readers

/-! ## Numeric rules -/

namespace Rule

/-- The properties with a rule of their own that a number is written for. -/
def numericDedicated : List String :=
  ["padding", "margin", "paddingX", "paddingY", "marginX", "marginY", "border", "borderTop",
   "borderRight", "borderBottom", "borderLeft", "borderRadius", "opacity", "backgroundOpacity",
   "letterSpacing", "fontWeight"]

/-- **The properties that a number is written for.** -/
def numericNames : List String := lengthNames ++ unitlessNames ++ numericDedicated

/-- **The rules for numbers.** -/
def isNumeric : Rule → Bool
  | box | lengthAs _ | border _ | borderRadius | opacity | opacityPercent | fontWeight
  | letterSpacing | length | unitless => true
  | _ => false

theorem numericNames_table :
    (∀ name ∈ unitlessNames ++ numericDedicated, (ofName name).isNumeric) ∧
      ∀ name ∈ numericNames, Dashless name := by
  decide +kernel

theorem isNumeric_of_mem_numericNames {name : String} (h : name ∈ numericNames) :
    (ofName name).isNumeric := by
  rw [numericNames, List.append_assoc, List.mem_append] at h
  obtain hlength | hname := h
  · rw [ofName_of_mem_lengthNames name hlength]
    rfl
  · exact numericNames_table.1 name hname

/-- A property for numbers is its own canonical name. -/
theorem canonicalName_of_mem_numericNames {name : String} (h : name ∈ numericNames) :
    canonicalName name = name :=
  canonicalName_of_dashless (numericNames_table.2 name h)

/-- **What a numeric rule writes** for a number. -/
def numberPatch (c : Config) (property : String) (x : FiniteDouble) : Rule → StylePatch
  | lengthAs name => .one name (.number x)
  | border side => .one (Shorthand.widthName side) (.number x)
  | borderRadius => .one "borderRadius" (.number (Shorthand.roundedRadius c x))
  | opacity => .one "opacity" (.number x)
  | opacityPercent => .one "opacity" (.number (ofPercent x))
  | fontWeight => .one "fontWeight" (.ofText x.plain)
  | letterSpacing => .one "letterSpacing" (.number x)
  | _ => .one property (.number x)

section Patches

variable {r : Rule} (hr : r.isNumeric) (c : Config) (property : String)
include hr

/-- A number is written as it is. -/
theorem patch_number (n : Number) :
    r.patch c property (.number n) = .ok (r.numberPatch c property n.value) := by
  cases r <;> first | rfl | cases hr

/-- **A text that spells a number** writes what the number does. -/
theorem patch_plain {x : FiniteDouble} (hx : FiniteDouble.parse? x.plain = some x) :
    r.patch c property (.string (String.ofList x.plain)) = .ok (r.numberPatch c property x) := by
  have htext : StyleValue.ofLength (.string (String.ofList x.plain)) = .number x := by
    rw [StyleValue.ofLength, String.toList_ofList, Dimension.parse?_plain hx]
  cases r with
  | box =>
    rw [patch, Shorthand.box, String.toList_ofList, boxOfText_plain hx]
    rfl
  | lengthAs name => rw [patch, htext]; rfl
  | border side =>
    rw [patch, Shorthand.border, String.toList_ofList, x.trim_plain, borderOfText_plain hx]
    rfl
  | borderRadius =>
    rw [patch, Shorthand.borderRadius, String.toList_ofList, x.trim_plain, radiusOfText_plain hx]
    rfl
  | opacity => rw [patch, toNumber?_plain hx]; rfl
  | opacityPercent => rw [patch, toNumber?_plain hx]; rfl
  | fontWeight =>
    have hweight : fontWeight? (.string (String.ofList x.plain)) = some x.plain := by
      have hempty : x.plain.isEmpty = false := List.isEmpty_eq_false_iff.2 x.plain_ne_nil
      rw [fontWeight?, String.toList_ofList, x.trim_plain, Dimension.lowerAscii_plain, hempty]
      rfl
    rw [patch, hweight]
    rfl
  | letterSpacing =>
    have hspacing : letterSpacing? c (.string (String.ofList x.plain)) = some (.finite x) := by
      rw [letterSpacing?, String.toList_ofList, Dimension.parse?_plain hx]
      rfl
    rw [patch, hspacing]
    rfl
  | length => rw [patch, htext]; rfl
  | unitless =>
    have hvalue : ScreenLayout.unitless (.string (String.ofList x.plain)) = .number x := by
      rw [ScreenLayout.unitless, String.toList_ofList, unitlessNumber?_plain hx]
    rw [patch, hvalue]
    rfl
  | _ => cases hr

end Patches

/-- **Equal numbers are written alike**, in any relation that holds of them and of the radius of a
pill with itself. -/
theorem sameBy_numberPatch (r : Rule) (c : Config) (property : String) {R : Double → Double → Prop}
    (hequal : ∀ x y : FiniteDouble, x.signed = y.signed → R x y)
    (hpill : R c.pillRadius c.pillRadius) {x y : FiniteDouble} (h : x.signed = y.signed) :
    (r.numberPatch c property x).SameBy R (r.numberPatch c property y) := by
  have hnumber : ∀ name : String,
      (StylePatch.one name (.number x)).SameBy R (.one name (.number y)) := fun name =>
    StylePatch.sameBy_one name (.number (hequal x y h))
  cases r with
  | borderRadius =>
    refine StylePatch.sameBy_one _ (.number ?_)
    rw [Shorthand.roundedRadius, Shorthand.roundedRadius, Double.le_congr_right h]
    split
    · exact hpill
    · exact hequal x y h
  | opacityPercent =>
    obtain ⟨a, b, ha, hb, hab⟩ := exists_ofPercent_of_signed_eq h
    refine StylePatch.sameBy_one _ (.number ?_)
    rw [ha, hb]
    exact hequal a b hab
  | fontWeight =>
    rw [numberPatch, numberPatch, FiniteDouble.plain_eq_of_signed_eq h]
    exact StylePatch.sameBy_one _ (.text _)
  | _ => exact hnumber _

end Rule

/-! ## Compiled numbers and texts -/

/-- **A number and its text write alike** in a dictionary. -/
theorem sameBy_compileEntry {R : Double → Double → Prop} {c : Config}
    (hequal : ∀ x y : FiniteDouble, x.signed = y.signed → R x y)
    (hpill : R c.pillRadius c.pillRadius) {key : String}
    (hkey : canonicalName key ∈ Rule.numericNames) (n : Number) :
    (compileEntry c (key, .number n)).patch.SameBy R
      (compileEntry c (key, .string (String.ofList n.value.plain))).patch := by
  have hr := Rule.isNumeric_of_mem_numericNames hkey
  obtain ⟨y, hsigned, hplain, hread⟩ := n.value.exists_plain_eq
  have hnumber : c.resolver.unwrap (.number n) = some (.number n) :=
    Resolver.unwrap_of_wrapped?_eq_none c.resolver rfl nofun
  have htext : c.resolver.unwrap (.string (String.ofList y.plain))
      = some (.string (String.ofList y.plain)) :=
    Resolver.unwrap_of_wrapped?_eq_none c.resolver rfl nofun
  have hleft : (compileEntry c (key, .number n)).patch
      = (Rule.ofName (canonicalName key)).numberPatch c (canonicalName key) n.value :=
    patch_compileEntry_of_ok hnumber (Rule.patch_number hr c _ n)
  have hright : (compileEntry c (key, .string (String.ofList y.plain))).patch
      = (Rule.ofName (canonicalName key)).numberPatch c (canonicalName key) y :=
    patch_compileEntry_of_ok htext (Rule.patch_plain hr c _ hread)
  rw [hplain, hleft, hright]
  exact Rule.sameBy_numberPatch _ c _ hequal hpill hsigned

/-- **A number and its text spelling compile alike**, for every property that numbers are written
for, under its name or any spelling of it: to styles that are the same up to the sign of zero, and to
equal styles unless the radius of a pill is itself no number.  The text is read as a number equal to
the one it spells.

The first part is the general one: it holds under all settings, for each number is then identical to
the other or equal to it.  Equality as numbers alone asks more of the settings: where the radius of a
pill is no number, a length from the threshold up is written as that, and no style that holds it is
equal to any, itself included. -/
theorem compile_number_text (c : Config) (n : Number) {key : String}
    (hkey : key ∈ Rule.numericNames ∨ canonicalName key ∈ Rule.numericNames) :
    (compile c [(key, .number n)]).style.SameBy Double.Same
        (compile c [(key, .string (String.ofList n.value.plain))]).style ∧
      (c.pillRadius ≠ .nan → (compile c [(key, .number n)]).style.SameBy Double.Equal
        (compile c [(key, .string (String.ofList n.value.plain))]).style) ∧
      ∃ x y, Json.toNumber? (.number n) = some x ∧
        Json.toNumber? (.string (String.ofList n.value.plain)) = some y ∧
          (Double.finite x).Equal y := by
  replace hkey : canonicalName key ∈ Rule.numericNames := by
    obtain hname | hcanonical := hkey
    · rwa [Rule.canonicalName_of_mem_numericNames hname]
    · exact hcanonical
  refine ⟨?_, fun hpill => ?_, ?_⟩
  · exact compile_sameBy (.cons (sameBy_compileEntry (fun x y h => .inr h) (.inl rfl) hkey n) .nil)
  · exact compile_sameBy
      (.cons (sameBy_compileEntry (fun x y h => h) (Double.Equal.refl hpill) hkey n) .nil)
  · obtain ⟨y, hsigned, hplain, hread⟩ := n.value.exists_plain_eq
    exact ⟨n.value, y, rfl, by rw [hplain]; exact toNumber?_plain hread, hsigned⟩

/-- The zero below zero. -/
def negativeZero : FiniteDouble := { FiniteDouble.zero with negative := true }

/-- A negative zero is spelled `0`, and both are one opacity: zeros of two signs, which are equal. -/
theorem compile_number_text_zero :
    "opacity" ∈ Rule.numericNames ∧
      (compile {} [("opacity", .number (.double negativeZero))]).style.SameBy Double.Equal
        (compile {} [("opacity", .string "0")]).style ∧
      compile {} [("opacity", .number (.double negativeZero))]
        = ⟨Style.empty.insert "opacity" (.number negativeZero), []⟩ ∧
      compile {} [("opacity", .string "0")]
        = ⟨Style.empty.insert "opacity" (.number FiniteDouble.zero), []⟩ := by
  have hkey : "opacity" ∈ Rule.numericNames := by
    simp [Rule.numericNames, Rule.numericDedicated]
  have hpill : Config.pillRadius {} ≠ .nan := nofun
  have hzero : negativeZero.units = 0 := by
    simp only [negativeZero, FiniteDouble.zero, FiniteDouble.ofUInt64, FiniteDouble.ofInt,
      FiniteDouble.ofRatio, UInt64.toNat_zero, Int.natAbs_natCast, Nat.zero_mul]
    exact Units.round_eq_zero (by decide)
  have hplain : (Number.double negativeZero).value.plain = ['0'] :=
    FiniteDouble.plain_of_units_eq_zero hzero
  have halike := (compile_number_text {} (.double negativeZero) (.inl hkey)).2.1 hpill
  rw [hplain] at halike
  exact ⟨hkey, halike, by decide +kernel, by decide +kernel⟩

end ScreenLayout
