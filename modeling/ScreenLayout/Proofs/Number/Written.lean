import Mathlib.Data.List.TakeWhile
import ScreenLayout.Number.Written

/-!
# Proofs/Number/Written — the plain form is never empty

The digits of a double read back to it, so a double other than zero has a digit that is not zero, and
that one is not dropped with the zeros at the end.

* `FiniteDouble.digits_ne_nil` — a double other than zero has a significant digit.
* `FiniteDouble.plain_ne_nil` — every double is written with at least one character.
-/

namespace ScreenLayout

theorem Decimal.units_zero (e : Int) : Decimal.units 0 e = 0 := by
  cases e with
  | ofNat k => rfl
  | negSucc k =>
    change (if Nat.log2 0 + 1100 < k then 0 else Units.round (0 * Units.perOne) (tenPow (k + 1))) = 0
    split
    · rfl
    · have hround : Units.round (0 * tenPow (k + 1)) (tenPow (k + 1)) = 0 :=
        Units.round_mul_right (Nat.dvd_zero _) (tenPow_pos _)
      rw [Nat.zero_mul] at hround ⊢
      exact hround

theorem Shortest.coefficient_ne_zero (tie : Tie) {n : Nat} (hn : n ≠ 0)
    (h : Units.twoPow (Units.lastPlace n) ∣ n) : (shortest tie n).1 ≠ 0 := by
  intro hzero
  have hread := units_shortest tie h
  rw [hzero, Decimal.units_zero] at hread
  exact hn hread.symm

/-- Digits that are all zero spell zero. -/
theorem Digits.normalized_ne_nil {c : Nat} (hc : c ≠ 0) (e : Int) :
    (Digits.normalized { digits := Nat.toDigits 10 c, exponent := e }).digits ≠ [] := by
  intro hnil
  have hall : ∀ d ∈ Nat.toDigits 10 c, d = '0' := by
    intro d hd
    have hdrop := List.dropWhile_eq_nil_iff.1 (List.reverse_eq_nil_iff.1 hnil)
    exact eq_of_beq (hdrop d (List.mem_reverse.2 hd))
  refine hc ?_
  rw [← Nat.ofDigitChars_ten_toDigits (n := c), List.eq_replicate_of_mem hall,
    Nat.ofDigitChars_replicate_zero, Nat.mul_zero]

namespace FiniteDouble

/-- **A double other than zero has a significant digit.** -/
theorem digits_ne_nil (tie : Tie) {x : FiniteDouble} (hx : x.isZero = false) :
    (x.digits tie).digits ≠ [] := by
  have hunits : x.units ≠ 0 := by
    intro hzero
    rw [isZero, hzero] at hx
    cases hx
  have hcoefficient := Shortest.coefficient_ne_zero tie hunits x.representable.1
  unfold digits
  generalize Shortest.shortest tie x.units = decimal at hcoefficient ⊢
  exact Digits.normalized_ne_nil hcoefficient decimal.2

/-- **Every double is written with at least one character.** -/
theorem plain_ne_nil (x : FiniteDouble) : x.plain ≠ [] := by
  have hpositional : ∀ d : Digits, d.digits ≠ [] → d.positional ≠ [] := by
    intro d hd
    unfold Digits.positional
    split
    · exact List.append_ne_nil_of_left_ne_nil hd _
    · dsimp only
      split
      · exact List.append_ne_nil_of_right_ne_nil _ (List.cons_ne_nil _ _)
      · exact List.cons_ne_nil _ _
  unfold plain
  cases hx : x.isZero with
  | true => exact List.cons_ne_nil _ _
  | false =>
    exact List.append_ne_nil_of_right_ne_nil _ (hpositional _ (digits_ne_nil .up hx))

end FiniteDouble

end ScreenLayout
