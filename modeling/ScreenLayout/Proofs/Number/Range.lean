import Mathlib.Tactic.Ring
import ScreenLayout.Proofs.Number.ReadBack

/-!
# Proofs/Number/Range — the decimals within the range of doubles

The greatest double is `2 ^ 1024 - 2 ^ 971`, and the next significand would be `2 ^ 1024`.  A decimal
that is no nearer to the one than to the other is a tie, and goes to the even significand, which no
double has.  So decimals overflow from the middle between the two on.

* `Units.round_lt_limit_iff` — the ratios that round to a finite count.
* `Decimal.Overflows` — the decimals beyond the range.
* `Decimal.isSome_finite?_toDouble_iff` — they are those without a finite double.
-/

namespace ScreenLayout

namespace Units

/-- The middle between the greatest double and the next power of two. -/
def overflowBound : Nat := twoPow 1024 - twoPow 970

/-- A ratio rounds to at most an odd number when it lies below the middle to the next. -/
theorem nearest_le_iff_of_odd {num den m : Nat} (hden : 0 < den) (hm : m % 2 = 1) :
    nearest num den ≤ m ↔ 2 * num < (2 * m + 1) * den := by
  have hsplit : den * (num / den) + num % den = num := Nat.div_add_mod num den
  have hrest : num % den < den := Nat.mod_lt num hden
  unfold nearest
  generalize num / den = q at hsplit ⊢
  generalize num % den = r at hsplit hrest ⊢
  rw [← hsplit]
  obtain hlt | rfl | hgt := Nat.lt_trichotomy q m
  · have hstep : den * (q + 1) ≤ den * m := Nat.mul_le_mul_left den hlt
    refine iff_of_true ?_ (by grind)
    split_ifs <;> omega
  · have hright : (2 * q + 1) * den = 2 * (den * q) + den := by grind
    rw [hright, hm]
    split_ifs <;> omega
  · have hstep : den * (m + 1) ≤ den * q := Nat.mul_le_mul_left den hgt
    refine iff_of_false ?_ (by grind)
    split_ifs <;> omega

theorem le_log2_of_twoPow_le {n k : Nat} (h : twoPow k ≤ n) : k ≤ n.log2 :=
  (Nat.le_log2 (Nat.ne_of_gt (Nat.lt_of_lt_of_le (twoPow_pos k) h))).2 h

theorem twoPow_log2_le {n : Nat} (hn : n ≠ 0) : twoPow n.log2 ≤ n := Nat.log2_self_le hn

/-- A ratio that reaches a power of two is not rounded below it. -/
theorem twoPow_le_round {num den k : Nat} (h : twoPow k ≤ num / den) (hk : 52 ≤ k) :
    twoPow k ≤ round num den := by
  have hne : num / den ≠ 0 := Nat.ne_of_gt (Nat.lt_of_lt_of_le (twoPow_pos k) h)
  have hlog : k ≤ (num / den).log2 := le_log2_of_twoPow_le h
  have hplace : lastPlace (num / den) + 52 = (num / den).log2 := Nat.sub_add_cancel (hk.trans hlog)
  -- the significand keeps its leading bit, whichever way it is rounded
  have hfloor : twoPow 52 ≤ num / (den * twoPow (lastPlace (num / den))) := by
    rw [← Nat.div_div_eq_div_mul, Nat.le_div_iff_mul_le (twoPow_pos _), ← twoPow_add, Nat.add_comm,
      hplace]
    exact twoPow_log2_le hne
  have hnearest : num / (den * twoPow (lastPlace (num / den)))
      ≤ nearest num (den * twoPow (lastPlace (num / den))) := by
    unfold nearest
    split_ifs <;> omega
  calc twoPow k ≤ twoPow (52 + lastPlace (num / den)) := twoPow_le_twoPow (by omega)
    _ = twoPow 52 * twoPow (lastPlace (num / den)) := twoPow_add _ _
    _ ≤ round num den := Nat.mul_le_mul_right _ (hfloor.trans hnearest)

/-- A ratio with a last place stays below the next power of two when it lies below the middle
between the greatest significand and that power. -/
theorem round_lt_iff_of_lastPlace {num den e : Nat} (hden : 0 < den)
    (hplace : lastPlace (num / den) = e + 1) :
    round num den < twoPow (54 + e) ↔ num < den * (twoPow (54 + e) - twoPow e) := by
  have hpower : twoPow (54 + e) = twoPow 53 * twoPow (e + 1) := by
    rw [← twoPow_add]
    exact congrArg twoPow (by omega)
  have hodd : (twoPow 53 - 1) % 2 = 1 := by decide
  have hpos : 0 < den * twoPow (e + 1) := Nat.mul_pos hden (twoPow_pos _)
  obtain ⟨m, hm⟩ : ∃ m, twoPow 53 = m + 1 := ⟨twoPow 53 - 1, by decide⟩
  rw [hpower, round, hplace, Nat.mul_lt_mul_right (twoPow_pos _), hm, Nat.lt_succ_iff,
    nearest_le_iff_of_odd hpos (by omega), twoPow_succ]
  have hmiddle : (m + 1) * (2 * twoPow e) - twoPow e = (2 * m + 1) * twoPow e := by
    rw [Nat.sub_eq_iff_eq_add (by grind)]
    ring
  have hdouble : (2 * m + 1) * (den * (2 * twoPow e)) = 2 * (den * ((2 * m + 1) * twoPow e)) := by
    ring
  rw [hmiddle, hdouble]
  omega

/-- **The ratios that round below a power of two** are those below the middle between it and the
greatest significand before it. -/
theorem round_lt_twoPow_iff {num den : Nat} (hden : 0 < den) (e : Nat) :
    round num den < twoPow (54 + e) ↔ num < den * (twoPow (54 + e) - twoPow e) := by
  have hdouble : twoPow (54 + e) = 2 * twoPow (53 + e) := by
    rw [← twoPow_succ]
    exact congrArg twoPow (by omega)
  have hsmall : twoPow e ≤ twoPow (53 + e) := twoPow_le_twoPow (Nat.le_add_left e 53)
  obtain hbelow | hfrom := Nat.lt_or_ge num (den * twoPow (53 + e))
  · have hround : round num den ≤ twoPow (53 + e) := round_le_twoPow hbelow (Nat.le_add_right 53 e)
    have hpos := twoPow_pos (53 + e)
    refine iff_of_true (by omega) (hbelow.trans_le (Nat.mul_le_mul_left den ?_))
    omega
  obtain hbelow | hbeyond := Nat.lt_or_ge (num / den) (twoPow (54 + e))
  · refine round_lt_iff_of_lastPlace hden ?_
    have hfloor : twoPow (53 + e) ≤ num / den :=
      (Nat.le_div_iff_mul_le hden).2 (by rwa [Nat.mul_comm])
    have hlow := le_log2_of_twoPow_le hfloor
    have hhigh := log2_lt_of_lt_twoPow hbelow (by omega)
    unfold lastPlace
    omega
  · have hround := twoPow_le_round hbeyond (by omega)
    refine iff_of_false (Nat.not_lt.2 hround) (Nat.not_lt.2 ?_)
    calc den * (twoPow (54 + e) - twoPow e) ≤ den * (num / den) :=
          Nat.mul_le_mul_left den ((Nat.sub_le _ _).trans hbeyond)
      _ ≤ num := Nat.mul_div_le num den

/-- **The numbers that round to a finite count** are those below the middle. -/
theorem round_lt_limit_iff {num den : Nat} (hden : 0 < den) :
    round (num * perOne) den < limit ↔ num < overflowBound * den := by
  have hlimit : 1024 + onePlace = 54 + 2044 := rfl
  have hmiddle : 970 + onePlace = 2044 := rfl
  have hbound : den * (twoPow (54 + 2044) - twoPow 2044) = overflowBound * den * perOne := by
    rw [overflowBound, Nat.mul_right_comm, Nat.sub_mul, perOne, ← twoPow_add, ← twoPow_add, hlimit,
      hmiddle, Nat.mul_comm]
  refine (round_lt_twoPow_iff hden 2044).trans ?_
  rw [hbound]
  exact Nat.mul_lt_mul_right perOne_pos

end Units

namespace Decimal

/-- **A decimal beyond the range**: it is no less than the middle between the greatest double and the
next power of two. -/
def Overflows (d : Decimal) : Prop :=
  Units.overflowBound * (ratio d.coefficient d.exponent).2 ≤ (ratio d.coefficient d.exponent).1

instance (d : Decimal) : Decidable d.Overflows := inferInstanceAs (Decidable (_ ≤ _))

theorem twoPow_le_tenPow (k : Nat) : Units.twoPow (3 * k) ≤ tenPow k :=
  calc Units.twoPow (3 * k) = Nat.pow (Nat.pow 2 3) k := Nat.pow_mul 2 3 k
    _ ≤ tenPow k := Nat.pow_le_pow_left (by decide) k

theorem overflowBound_le_tenPow {k : Nat} (hk : 400 < k) : Units.overflowBound ≤ tenPow k :=
  calc Units.overflowBound ≤ Units.twoPow 1024 := Nat.sub_le _ _
    _ ≤ Units.twoPow (3 * k) := Units.twoPow_le_twoPow (by omega)
    _ ≤ tenPow k := twoPow_le_tenPow k

/-- **A decimal counts as finite** when it does not overflow. -/
theorem units_lt_limit_iff (c : Nat) (e : Int) :
    units c e < Units.limit ↔ (ratio c e).1 < Units.overflowBound * (ratio c e).2 := by
  obtain k | k := e
  · have hpos : 0 < Units.overflowBound := Nat.sub_pos_of_lt (Units.twoPow_lt_twoPow (by decide))
    rw [units_ofNat, ratio]
    split_ifs with hzero hfar
    · rw [hzero, Nat.zero_mul]
      exact iff_of_true (Units.twoPow_pos _) (Nat.mul_pos hpos Nat.one_pos)
    · -- so far out the answer is the limit, without the power
      refine iff_of_false (Nat.lt_irrefl _) (Nat.not_lt.2 ?_)
      rw [Nat.mul_one]
      exact (overflowBound_le_tenPow hfar).trans
        (Nat.le_mul_of_pos_left _ (Nat.pos_of_ne_zero hzero))
    · exact Units.round_lt_limit_iff Nat.one_pos
  · rw [units_negSucc]
    exact Units.round_lt_limit_iff (tenPow_pos (k + 1))

theorem not_overflows_iff {d : Decimal} :
    ¬ d.Overflows ↔ units d.coefficient d.exponent < Units.limit :=
  Nat.not_le.trans (units_lt_limit_iff d.coefficient d.exponent).symm

/-- **A decimal has a finite double** when it does not overflow. -/
theorem isSome_finite?_toDouble_iff {d : Decimal} : d.toDouble.finite?.isSome ↔ ¬ d.Overflows := by
  rw [not_overflows_iff, toDouble]
  split_ifs with hlimit
  · exact iff_of_true rfl hlimit
  · exact iff_of_false Bool.false_ne_true hlimit

/-- The greatest double is within the range, and so is all before the middle. -/
example : ¬ Overflows ⟨false, Units.twoPow 1024 - Units.twoPow 970 - 1, 0⟩
    ∧ Overflows ⟨false, Units.twoPow 1024 - Units.twoPow 970, 0⟩ := by decide +kernel

end Decimal

end ScreenLayout
