import ScreenLayout.Proofs.Number.Written
import ScreenLayout.Proofs.Style.Token

/-!
# Proofs/Number/ReadBack — the plain form reads back

The digits found for a double round to its count of units, and the plain form spells the same ratio:
without the zeros the digits end in, with zeros for the places they leave out, or with a point among
them.  A ratio rounds alike however it is written, so the text reads back to the double.

* `Units.round_congr` — equal ratios round alike.
* `Numeral.decimal?_positional` — the decimal that positional digits spell.
* `FiniteDouble.parse?_plain` — the plain form of a double other than zero reads back to it.
-/

namespace ScreenLayout

/-! ## Ratios -/

namespace Units

theorem nearest_mul_mul (num den : Nat) {k : Nat} (hk : 0 < k) :
    nearest (num * k) (den * k) = nearest num den := by
  have hmod : 2 * (num * k % (den * k)) = 2 * (num % den) * k := by
    rw [Nat.mul_mod_mul_right, Nat.mul_assoc]
  have hbelow : 2 * (num % den) * k < den * k ↔ 2 * (num % den) < den := Nat.mul_lt_mul_right hk
  have habove : den * k < 2 * (num % den) * k ↔ den < 2 * (num % den) := Nat.mul_lt_mul_right hk
  simp only [nearest, hmod, hbelow, habove, Nat.mul_div_mul_right _ _ hk]

theorem round_mul_mul (num den : Nat) {k : Nat} (hk : 0 < k) :
    round (num * k) (den * k) = round num den := by
  simp only [round, Nat.mul_div_mul_right _ _ hk]
  rw [Nat.mul_right_comm, nearest_mul_mul _ _ hk]

/-- **Equal ratios round alike.** -/
theorem round_congr {num den num' den' : Nat} (hden : 0 < den) (hden' : 0 < den')
    (h : num * den' = num' * den) : round num den = round num' den' :=
  calc round num den = round (num * den') (den * den') := (round_mul_mul _ _ hden').symm
    _ = round (num' * den) (den' * den) := by rw [h, Nat.mul_comm den]
    _ = round num' den' := round_mul_mul _ _ hden

/-- A ratio below a half rounds to zero. -/
theorem round_eq_zero {num den : Nat} (h : 2 * num < den) : round num den = 0 := by
  have hlt : num < den := by omega
  have hplace : twoPow (lastPlace 0) = 1 := rfl
  have hmod : 2 * (num % den) < den := by rwa [Nat.mod_eq_of_lt hlt]
  rw [round, Nat.div_eq_of_lt hlt, hplace, Nat.mul_one, Nat.mul_one, nearest, if_pos hmod,
    Nat.div_eq_of_lt hlt]

end Units

namespace Decimal

theorem tenPow_add (j k : Nat) : tenPow (j + k) = tenPow j * tenPow k := Nat.pow_add 10 j k

/-- A decimal far below half a unit counts zero because it rounds to zero. -/
theorem units_negSucc (c k : Nat) :
    units c (.negSucc k) = Units.round (c * Units.perOne) (tenPow (k + 1)) := by
  change (if c.log2 + 1100 < k then 0 else _) = _
  split
  · rename_i hfar
    have hcount : 2 * (c * Units.perOne) < Units.twoPow (c.log2 + 1 + Units.onePlace + 1) := by
      rw [Units.twoPow_succ, Units.twoPow_add]
      exact Nat.mul_lt_mul_of_pos_left
        (Nat.mul_lt_mul_of_pos_right (Units.lt_twoPow_log2 c) Units.perOne_pos) Nat.two_pos
    have hplace : c.log2 + 1 + Units.onePlace + 1 ≤ k + 1 := by
      have : Units.onePlace = 1074 := rfl
      omega
    have hten : Units.twoPow (k + 1) ≤ tenPow (k + 1) := Nat.pow_le_pow_left (by decide) _
    exact (Units.round_eq_zero
      (hcount.trans_le ((Units.twoPow_le_twoPow hplace).trans hten))).symm
  · rfl

theorem units_ofNat (c k : Nat) :
    units c (.ofNat k) = if c = 0 then 0 else if 400 < k then Units.limit
      else Units.round (c * tenPow k * Units.perOne) 1 := rfl

/-- A decimal as a ratio. -/
def ratio (c : Nat) : Int → Nat × Nat
  | .ofNat k => (c * tenPow k, 1)
  | .negSucc k => (c, tenPow (k + 1))

theorem ratio_den_pos (c : Nat) (e : Int) : 0 < (ratio c e).2 := by
  cases e with
  | ofNat k => exact Nat.one_pos
  | negSucc k => exact tenPow_pos _

/-- **A decimal within the range counts as its ratio rounds.** -/
theorem units_eq_round {c : Nat} {e : Int} (h : units c e < Units.limit) :
    units c e = Units.round ((ratio c e).1 * Units.perOne) (ratio c e).2 := by
  cases e with
  | negSucc k => exact units_negSucc c k
  | ofNat k =>
    rw [units_ofNat] at h ⊢
    split
    · rename_i hzero
      rw [hzero, ratio, Nat.zero_mul, Nat.zero_mul]
      exact (Units.round_eq_zero Nat.one_pos).symm
    · rename_i hzero
      rw [if_neg hzero] at h
      split
      · rename_i hfar
        rw [if_pos hfar] at h
        exact absurd h (Nat.lt_irrefl _)
      · rfl

/-- Without a positive exponent a decimal always counts as its ratio rounds. -/
theorem units_neg (c places : Nat) :
    units c (-(places : Int)) = Units.round (c * Units.perOne) (tenPow places) := by
  cases places with
  | succ k => exact units_negSucc c k
  | zero =>
    have hone : tenPow 0 = 1 := rfl
    have hexponent : -((0 : Nat) : Int) = .ofNat 0 := rfl
    rw [hexponent, units_ofNat, hone, Nat.mul_one, if_neg (Nat.not_lt_zero 400)]
    split
    · rename_i hzero
      rw [hzero, Nat.zero_mul]
      exact (Units.round_eq_zero Nat.one_pos).symm
    · rfl

end Decimal

/-! ## Digits and what they spell -/

namespace Digits

/-- The whole number digits spell. -/
def coefficient (d : Digits) : Nat := Nat.ofDigitChars 10 d.digits 0

/-- The coefficient that positional digits spell: zeros after them count. -/
def spelled (d : Digits) : Nat := d.coefficient * Decimal.tenPow d.exponent.toNat

/-- The number of digits behind the point. -/
def places (d : Digits) : Nat := (-d.exponent).toNat

/-- Digits are those kept, and zeros. -/
theorem exists_eq_append_zeros (ds : List Char) (e : Int) :
    ∃ zeros, ds = (Digits.normalized ⟨ds, e⟩).digits ++ List.replicate zeros '0' ∧
      (Digits.normalized ⟨ds, e⟩).exponent = e + zeros := by
  have hsplit : ds = (Digits.normalized ⟨ds, e⟩).digits ++ (ds.reverse.takeWhile (· == '0')).reverse := by
    rw [normalized, ← List.reverse_append, List.takeWhile_append_dropWhile, List.reverse_reverse]
  have hzeros : (ds.reverse.takeWhile (· == '0')).reverse
      = List.replicate (ds.reverse.takeWhile (· == '0')).length '0' := by
    refine List.eq_replicate_iff.2 ⟨List.length_reverse, fun c hc => ?_⟩
    exact eq_of_beq (List.mem_takeWhile_imp (p := (· == '0')) (List.mem_reverse.1 hc))
  rw [hzeros] at hsplit
  have hlength := congrArg List.length hsplit
  rw [List.length_append, List.length_replicate] at hlength
  have hdropped : ds.length - (normalized ⟨ds, e⟩).digits.length
      = (ds.reverse.takeWhile (· == '0')).length := by omega
  refine ⟨_, hsplit, ?_⟩
  rw [← hdropped]
  rfl

/-- **Digits without their zeros spell the same ratio.** -/
theorem ratio_normalized (c : Nat) (e : Int) :
    (Decimal.ratio c e).1 * Decimal.tenPow (normalized ⟨Nat.toDigits 10 c, e⟩).places
      = (normalized ⟨Nat.toDigits 10 c, e⟩).spelled * (Decimal.ratio c e).2 := by
  obtain ⟨zeros, hdigits, hexponent⟩ := exists_eq_append_zeros (Nat.toDigits 10 c) e
  generalize normalized ⟨Nat.toDigits 10 c, e⟩ = d at hdigits hexponent ⊢
  have hc : c = d.coefficient * Decimal.tenPow zeros := by
    rw [← Nat.ofDigitChars_ten_toDigits (n := c), hdigits, Nat.ofDigitChars_append,
      Nat.ofDigitChars_replicate_zero, Nat.mul_comm]
    rfl
  rw [spelled, places, hexponent]
  cases e with
  | ofNat k =>
    have hup : (Int.ofNat k + zeros).toNat = zeros + k := by rw [Int.ofNat_eq_natCast]; omega
    have hdown : (-(Int.ofNat k + zeros)).toNat = 0 := by rw [Int.ofNat_eq_natCast]; omega
    rw [hup, hdown, Decimal.tenPow_add, ← Nat.mul_assoc, ← hc]
    rfl
  | negSucc k =>
    have hplaces : zeros + (-(Int.negSucc k + zeros)).toNat
        = (Int.negSucc k + zeros).toNat + (k + 1) := by omega
    have hden : (Decimal.ratio c (.negSucc k)).2 = Decimal.tenPow (k + 1) := rfl
    rw [hden, Nat.mul_assoc, ← Decimal.tenPow_add, ← hplaces, Decimal.tenPow_add, ← Nat.mul_assoc,
      ← hc]
    rfl

end Digits

/-! ## Reading digits with a point -/

namespace Numeral

theorem digits_append_of_all {ds : List Char} (hds : ∀ c ∈ ds, c.isDigit) (rest : List Char) :
    digits (ds ++ rest) = ds ++ digits rest := List.takeWhile_append_of_pos hds

theorem afterDigits_append_of_all {ds : List Char} (hds : ∀ c ∈ ds, c.isDigit) (rest : List Char) :
    afterDigits (ds ++ rest) = afterDigits rest := List.dropWhile_append_of_pos hds

theorem digits_of_all {ds : List Char} (hds : ∀ c ∈ ds, c.isDigit) : digits ds = ds :=
  List.takeWhile_eq_self_iff.2 hds

theorem afterDigits_of_all {ds : List Char} (hds : ∀ c ∈ ds, c.isDigit) : afterDigits ds = [] :=
  List.dropWhile_eq_nil_iff.2 hds

theorem decimal?_digits {ds : List Char} (hne : ds ≠ []) (hds : ∀ c ∈ ds, c.isDigit)
    (negative : Bool) : decimal? negative ds = some ⟨negative, Nat.ofDigitChars 10 ds 0, 0⟩ := by
  have hempty : ds.isEmpty = false := List.isEmpty_eq_false_iff.2 hne
  simp [decimal?, digits_of_all hds, afterDigits_of_all hds, splitFraction, hempty, exponent?]

theorem decimal?_point {whole fraction : List Char} (hne : whole ≠ [])
    (hwhole : ∀ c ∈ whole, c.isDigit) (hfraction : ∀ c ∈ fraction, c.isDigit) (negative : Bool) :
    decimal? negative (whole ++ '.' :: fraction)
      = some ⟨negative, Nat.ofDigitChars 10 (whole ++ fraction) 0, -(fraction.length : Int)⟩ := by
  have hdigits : digits (whole ++ '.' :: fraction) = whole := by
    rw [digits_append_of_all hwhole]
    exact List.append_nil whole
  have hafter : afterDigits (whole ++ '.' :: fraction) = '.' :: fraction :=
    afterDigits_append_of_all hwhole _
  have hempty : whole.isEmpty = false := List.isEmpty_eq_false_iff.2 hne
  simp [decimal?, hdigits, hafter, splitFraction, digits_of_all hfraction,
    afterDigits_of_all hfraction, hempty, exponent?]

theorem isDigit_of_mem_zeros (k : Nat) : ∀ c ∈ List.replicate k '0', c.isDigit := by
  intro c hc
  rw [List.eq_of_mem_replicate hc]
  rfl

section Positional

variable {ds : List Char} (hd : ∀ c ∈ ds, c.isDigit) (negative : Bool)
include hd

/-- Zeros after the digits. -/
theorem decimal?_zeros_after (hne : ds ≠ []) (zeros : Nat) :
    decimal? negative (Digits.positional ⟨ds, .ofNat zeros⟩)
      = some ⟨negative, Digits.spelled ⟨ds, .ofNat zeros⟩, 0⟩ := by
  have hall : ∀ c ∈ ds ++ List.replicate zeros '0', c.isDigit :=
    List.forall_mem_append.2 ⟨hd, isDigit_of_mem_zeros zeros⟩
  have hspelled : Nat.ofDigitChars 10 (ds ++ List.replicate zeros '0') 0
      = Digits.spelled ⟨ds, .ofNat zeros⟩ := by
    rw [Nat.ofDigitChars_append, Nat.ofDigitChars_replicate_zero, Nat.mul_comm]
    rfl
  have htext : Digits.positional ⟨ds, .ofNat zeros⟩ = ds ++ List.replicate zeros '0' := rfl
  rw [← hspelled, htext]
  exact decimal?_digits (List.append_ne_nil_of_left_ne_nil hne _) hall negative

/-- A point among the digits. -/
theorem decimal?_point_among {k : Nat} (hinside : k + 1 < ds.length) :
    decimal? negative (Digits.positional ⟨ds, .negSucc k⟩)
      = some ⟨negative, Nat.ofDigitChars 10 ds 0, -((k + 1 : Nat) : Int)⟩ := by
  have htext : Digits.positional ⟨ds, .negSucc k⟩
      = ds.take (ds.length - (k + 1)) ++ '.' :: ds.drop (ds.length - (k + 1)) := if_pos hinside
  have hfront : ds.take (ds.length - (k + 1)) ≠ [] := by
    intro hnil
    have hlength := congrArg List.length hnil
    rw [List.length_take, List.length_nil] at hlength
    omega
  have hback : (ds.drop (ds.length - (k + 1))).length = k + 1 := by
    rw [List.length_drop]
    omega
  rw [htext, decimal?_point hfront (fun c hc => hd c (List.mem_of_mem_take hc))
    (fun c hc => hd c (List.mem_of_mem_drop hc)), List.take_append_drop, hback]

/-- Zeros fill the places before the digits. -/
theorem decimal?_zeros_before {k : Nat} (houtside : ¬ k + 1 < ds.length) :
    decimal? negative (Digits.positional ⟨ds, .negSucc k⟩)
      = some ⟨negative, Nat.ofDigitChars 10 ds 0, -((k + 1 : Nat) : Int)⟩ := by
  have htext : Digits.positional ⟨ds, .negSucc k⟩
      = ['0'] ++ '.' :: (List.replicate (k + 1 - ds.length) '0' ++ ds) := if_neg houtside
  have hfraction : ∀ c ∈ List.replicate (k + 1 - ds.length) '0' ++ ds, c.isDigit :=
    List.forall_mem_append.2 ⟨isDigit_of_mem_zeros _, hd⟩
  have hlength : (List.replicate (k + 1 - ds.length) '0' ++ ds).length = k + 1 := by
    rw [List.length_append, List.length_replicate]
    omega
  have hvalue : Nat.ofDigitChars 10 (['0'] ++ (List.replicate (k + 1 - ds.length) '0' ++ ds)) 0
      = Nat.ofDigitChars 10 ds 0 := by
    rw [Nat.ofDigitChars_append, Nat.ofDigitChars_append, Nat.ofDigitChars_replicate_zero]
    rfl
  have hwhole : ∀ c ∈ ['0'], c.isDigit := isDigit_of_mem_zeros 1
  rw [htext, decimal?_point (List.cons_ne_nil _ _) hwhole hfraction, hvalue, hlength]

end Positional

/-- **The decimal that positional digits spell.** -/
theorem decimal?_positional {d : Digits} (hne : d.digits ≠ []) (hd : ∀ c ∈ d.digits, c.isDigit)
    (negative : Bool) :
    decimal? negative d.positional = some ⟨negative, d.spelled, -(d.places : Int)⟩ := by
  obtain ⟨ds, e⟩ := d
  cases e with
  | ofNat zeros =>
    have hplaces : Digits.places ⟨ds, .ofNat zeros⟩ = 0 := by
      change (-Int.ofNat zeros).toNat = 0
      rw [Int.ofNat_eq_natCast]
      omega
    rw [hplaces]
    exact decimal?_zeros_after hd negative hne zeros
  | negSucc k =>
    have hspelled : Digits.spelled ⟨ds, .negSucc k⟩ = Nat.ofDigitChars 10 ds 0 := Nat.mul_one _
    have hplaces : Digits.places ⟨ds, .negSucc k⟩ = k + 1 := rfl
    rw [hspelled, hplaces]
    by_cases hinside : k + 1 < ds.length
    · exact decimal?_point_among hd negative hinside
    · exact decimal?_zeros_before hd negative hinside

end Numeral

/-! ## The plain form -/

theorem isAlpha_of_isDigit {c : Char} (hc : c.isDigit) : c.isAlpha = false := by
  refine Bool.eq_false_iff.2 fun halpha => ?_
  have hstart : Token.isIdentStart c := Bool.or_eq_true_iff.2 (.inl halpha)
  rw [Token.isDigit_of_isIdentStart hstart] at hc
  cases hc

/-- A decimal within the range is the double of its sign and count. -/
theorem Decimal.toDouble_eq_finite {d : Decimal} {x : FiniteDouble}
    (hnegative : d.negative = x.negative) (hunits : units d.coefficient d.exponent = x.units) :
    d.toDouble = .finite x := by
  obtain ⟨negative, count, hrepresentable⟩ := x
  subst hnegative hunits
  exact dif_pos hrepresentable.2

namespace FiniteDouble

theorem isDigit_of_mem_digits (tie : Tie) (x : FiniteDouble) :
    ∀ c ∈ (x.digits tie).digits, c.isDigit := by
  unfold digits
  generalize Shortest.shortest tie x.units = decimal
  intro c hc
  have hmem : c ∈ Nat.toDigits 10 decimal.1 :=
    List.mem_reverse.1 ((List.dropWhile_sublist _).subset (List.mem_reverse.1 hc))
  exact Nat.isDigit_of_mem_toDigits (by decide) (by decide) hmem

/-- **The digits of a double spell its count.** -/
theorem units_spelled (tie : Tie) (x : FiniteDouble) :
    Decimal.units (x.digits tie).spelled (-((x.digits tie).places : Int)) = x.units := by
  have hread := Shortest.units_shortest tie x.representable.1
  unfold digits
  generalize Shortest.shortest tie x.units = decimal at hread ⊢
  have hlimit : Decimal.units decimal.1 decimal.2 < Units.limit := by
    rw [hread]
    exact x.representable.2
  rw [Decimal.units_neg, ← hread, Decimal.units_eq_round hlimit]
  refine Units.round_congr (Decimal.tenPow_pos _) (Decimal.ratio_den_pos _ _) ?_
  rw [Nat.mul_right_comm, ← Digits.ratio_normalized, Nat.mul_right_comm]

/-- A positional form is made of digits and perhaps a point. -/
theorem mem_positional {d : Digits} (hd : ∀ c ∈ d.digits, c.isDigit) :
    ∀ c ∈ d.positional, c.isDigit ∨ c = '.' := by
  intro c hc
  unfold Digits.positional at hc
  dsimp only at hc
  split at hc
  · simp only [List.mem_append, List.mem_replicate] at hc
    rcases hc with hc | ⟨-, rfl⟩
    · exact .inl (hd c hc)
    · exact .inl rfl
  · split at hc
    · simp only [List.mem_append, List.mem_cons] at hc
      rcases hc with hc | rfl | hc
      · exact .inl (hd c (List.mem_of_mem_take hc))
      · exact .inr rfl
      · exact .inl (hd c (List.mem_of_mem_drop hc))
    · simp only [List.mem_append, List.mem_cons, List.mem_replicate] at hc
      rcases hc with rfl | rfl | ⟨-, rfl⟩ | hc
      · exact .inl rfl
      · exact .inr rfl
      · exact .inl rfl
      · exact .inl (hd c hc)

/-- **The plain form is made of digits, a sign and a point.** -/
theorem mem_plain (x : FiniteDouble) : ∀ c ∈ x.plain, c.isDigit ∨ c ∈ numberMarks := by
  intro c hc
  unfold plain at hc
  split at hc
  · rw [List.mem_singleton.1 hc]
    exact .inl rfl
  · rcases List.mem_append.1 hc with hc | hc
    · unfold signText at hc
      split at hc
      · rw [List.mem_singleton.1 hc]
        exact .inr (by decide)
      · cases hc
    · rcases mem_positional (isDigit_of_mem_digits _ x) c hc with hdigit | rfl
      · exact .inl hdigit
      · exact .inr (by decide)

/-- A positional form begins with a digit. -/
theorem exists_positional_eq_cons {d : Digits} (hne : d.digits ≠ [])
    (hd : ∀ c ∈ d.digits, c.isDigit) : ∃ c cs, d.positional = c :: cs ∧ c.isDigit := by
  obtain ⟨ds, e⟩ := d
  obtain ⟨c, ds, rfl⟩ := List.exists_cons_of_ne_nil hne
  have hc : c.isDigit := hd c List.mem_cons_self
  unfold Digits.positional
  dsimp only
  split
  · exact ⟨c, _, rfl, hc⟩
  · rename_i k
    split
    · rename_i hinside
      obtain ⟨n, hn⟩ := Nat.exists_eq_add_of_lt hinside
      have htake : (c :: ds).length - (k + 1) = n + 1 := by omega
      rw [htake, List.take_succ_cons]
      exact ⟨c, _, rfl, hc⟩
    · exact ⟨'0', _, rfl, rfl⟩

/-- The plain form has a digit. -/
theorem exists_isDigit_mem_plain (x : FiniteDouble) : ∃ c ∈ x.plain, c.isDigit := by
  unfold plain
  split
  · exact ⟨'0', List.mem_singleton_self _, rfl⟩
  · rename_i hx
    obtain ⟨c, cs, hpositional, hc⟩ := exists_positional_eq_cons
      (digits_ne_nil .up (Bool.eq_false_iff.2 hx)) (isDigit_of_mem_digits .up x)
    exact ⟨c, List.mem_append_right _ (hpositional ▸ List.mem_cons_self), hc⟩

/-- **A double other than zero reads back from its plain form.** -/
theorem parse?_plain {x : FiniteDouble} (hx : x.isZero = false) :
    FiniteDouble.parse? x.plain = some x := by
  have hdigits := isDigit_of_mem_digits .up x
  obtain ⟨c, cs, hpositional, hc⟩ := exists_positional_eq_cons (digits_ne_nil .up hx) hdigits
  have hplain : x.plain = signText x.negative ++ (x.digits .up).positional := by
    rw [plain, hx]
    rfl
  have hsign : Numeral.splitSign x.plain = (signText x.negative, (x.digits .up).positional) := by
    rw [hplain, hpositional]
    cases x.negative with
    | true => rfl
    | false => exact Numeral.splitSign_of_head (Text.not_mem_of_all (by decide) hc) cs
  have hword : Numeral.word? x.negative (x.digits .up).positional = none := by
    rw [hpositional]
    exact Numeral.word?_eq_none_of_head (isAlpha_of_isDigit hc) _ cs
  have hnegative : decide (signText x.negative = ['-']) = x.negative := by
    cases x.negative <;> rfl
  have hread : Double.parse? x.plain = some (.finite x) := by
    unfold Double.parse?
    rw [hsign]
    dsimp only
    rw [hnegative, hword, Numeral.decimal?_positional (digits_ne_nil .up hx) hdigits]
    exact congrArg some (Decimal.toDouble_eq_finite rfl (units_spelled .up x))
  rw [FiniteDouble.parse?, hread]
  rfl

/-- **Every double reads back from its plain form**, up to the sign of zero. -/
theorem exists_parse?_plain (x : FiniteDouble) :
    ∃ y, FiniteDouble.parse? x.plain = some y ∧ y.signed = x.signed := by
  cases hx : x.isZero with
  | false => exact ⟨x, parse?_plain hx, rfl⟩
  | true =>
    have hplain : x.plain = ['0'] := by
      rw [plain, hx]
      rfl
    have hzero : x.signed = 0 := by
      have hunits : x.units = 0 := eq_of_beq hx
      rw [signed, hunits]
      split <;> rfl
    obtain ⟨y, hy, hsigned⟩ : ∃ y, FiniteDouble.parse? ['0'] = some y ∧ y.signed = 0 :=
      ⟨zero, by decide +kernel, by decide +kernel⟩
    exact ⟨y, by rw [hplain, hy], hsigned.trans hzero.symm⟩

end FiniteDouble

end ScreenLayout
