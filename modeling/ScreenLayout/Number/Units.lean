/-!
# Number/Units — doubles as whole numbers of the least positive double

Every finite double is a whole number of units of `2 ^ -1074`, so exact arithmetic on doubles is
arithmetic on `Nat`: a count is *representable* when its significant bits fit in 53 places and it
lies below `2 ^ 2098` units, which is `2 ^ 1024`.

* `Units.round` — the count nearest to a ratio, a tie going to the even significand.
* `Units.representable_round` — a rounded count below the limit is representable.
* `Units.round_mul_right` — a representable count is its own rounding.
* `Units.round_le_twoPow` — rounding does not cross a power of two.
-/

namespace ScreenLayout.Units

/-! ## Powers of two -/

/-- A power of two.  It is a definition of its own so that the large powers below stay closed where
numbers are simplified, and are opened by the lemmas here alone. -/
def twoPow (k : Nat) : Nat := Nat.pow 2 k

theorem twoPow_pos (k : Nat) : 0 < twoPow k := Nat.two_pow_pos k

theorem twoPow_add (j k : Nat) : twoPow (j + k) = twoPow j * twoPow k := Nat.pow_add 2 j k

theorem twoPow_succ (k : Nat) : twoPow (k + 1) = 2 * twoPow k := Nat.pow_succ'

theorem twoPow_le_twoPow {j k : Nat} (h : j ≤ k) : twoPow j ≤ twoPow k :=
  Nat.pow_le_pow_right (Nat.zero_lt_succ 1) h

theorem twoPow_lt_twoPow {j k : Nat} (h : j < k) : twoPow j < twoPow k :=
  Nat.pow_lt_pow_right (Nat.lt_succ_self 1) h

theorem twoPow_dvd_twoPow {j k : Nat} (h : j ≤ k) : twoPow j ∣ twoPow k := Nat.pow_dvd_pow 2 h

/-- The leading bit of a power of two is its exponent. -/
theorem log2_twoPow (k : Nat) : (twoPow k).log2 = k := Nat.log2_two_pow

/-- A count lies below the power of two after its leading bit. -/
theorem lt_twoPow_log2 (n : Nat) : n < twoPow (n.log2 + 1) := Nat.lt_log2_self

/-- A count below a power of two has its leading bit below that place.  Zero counts as having it at
the lowest place, so there must be one. -/
theorem log2_lt_of_lt_twoPow {n k : Nat} (h : n < twoPow k) (hk : 0 < k) : n.log2 < k := by
  rcases Nat.eq_zero_or_pos n with rfl | hn
  · exact hk
  · exact (Nat.log2_lt (Nat.pos_iff_ne_zero.1 hn)).2 h

/-! ## Counts -/

/-- One is `2 ^ 1074` units, the least positive double being `2 ^ -1074`. -/
def onePlace : Nat := 1074

/-- The finite doubles lie below `2 ^ 2098` units, which is `2 ^ 1024`. -/
def limitPlace : Nat := 2098

/-- The number of units in one. -/
def perOne : Nat := twoPow onePlace

/-- The least count beyond every finite double. -/
def limit : Nat := twoPow limitPlace

/-- The exponent of the last place of a count: 53 significant bits are kept, and no bits at all are
lost below `2 ^ 53`, where the truncated difference is `0`. -/
def lastPlace (n : Nat) : Nat := n.log2 - 52

/-- **A count a double holds exactly**: nothing stands below its last place, and it is finite. -/
def Representable (n : Nat) : Prop := twoPow (lastPlace n) ∣ n ∧ n < limit

instance (n : Nat) : Decidable (Representable n) := by
  unfold Representable; infer_instance

/-- The whole number nearest to `num / den`, a tie going to the even one.  Both comparisons are of
twice the remainder, so no half is ever formed. -/
def nearest (num den : Nat) : Nat :=
  if 2 * (num % den) < den then num / den
  else if den < 2 * (num % den) then num / den + 1
  else num / den + num / den % 2

/-- **The count nearest to `num / den` units** with 53 significant bits; it may reach the
limit.  The last place is that of the ratio rounded down: rounding up to a power of two moves it,
but that power has no bits to lose. -/
def round (num den : Nat) : Nat :=
  nearest num (den * twoPow (lastPlace (num / den))) * twoPow (lastPlace (num / den))

theorem perOne_pos : 0 < perOne := twoPow_pos _

/-- Half the limit is a power of two as well, the leading place of the greatest doubles. -/
theorem limit_eq_two_mul : limit = 2 * twoPow (limitPlace - 1) := twoPow_succ (limitPlace - 1)

theorem twoPow_lt_limit {k : Nat} (h : k < limitPlace) : twoPow k < limit := twoPow_lt_twoPow h

/-! ## The nearest whole number -/

/-- The nearest whole number is the ratio rounded down, or one more. -/
theorem nearest_le (num den : Nat) : nearest num den ≤ num / den + 1 := by
  unfold nearest
  have := Nat.mod_lt (num / den) (show 0 < 2 by decide)
  split
  · omega
  · split <;> omega

/-- A ratio that is whole is the whole number nearest to itself. -/
theorem nearest_mul_right (n : Nat) {den : Nat} (h : 0 < den) : nearest (n * den) den = n := by
  unfold nearest
  rw [Nat.mul_mod_left, Nat.mul_div_cancel n h, Nat.mul_zero, if_pos h]

/-! ## The last place -/

/-- **A count has at most 53 bits from its last place on.** -/
theorem lt_twoPow_lastPlace (n : Nat) : n < twoPow (lastPlace n + 53) :=
  Nat.lt_of_lt_of_le (lt_twoPow_log2 n) (twoPow_le_twoPow (by unfold lastPlace; omega))

/-- The significand, what is left of a count above its last place, fits in 53 bits. -/
theorem div_twoPow_lastPlace_lt (n : Nat) : n / twoPow (lastPlace n) < twoPow 53 := by
  rw [Nat.div_lt_iff_lt_mul (twoPow_pos _), ← twoPow_add, Nat.add_comm]
  exact lt_twoPow_lastPlace n

/-- The rounded significand has at most 53 bits, or is the next power of two. -/
theorem significand_le (num den : Nat) :
    nearest num (den * twoPow (lastPlace (num / den))) ≤ twoPow 53 := by
  have h := nearest_le num (den * twoPow (lastPlace (num / den)))
  rw [← Nat.div_div_eq_div_mul] at h
  exact Nat.le_trans h (div_twoPow_lastPlace_lt (num / den))

/-- **A significand in 53 bits loses nothing at any place**: the last place of the count it makes is
not above the place it is put at.  The next power of two, which has 54 bits, loses nothing
either. -/
theorem twoPow_lastPlace_dvd_mul {m e : Nat} (h : m ≤ twoPow 53) :
    twoPow (lastPlace (m * twoPow e)) ∣ m * twoPow e := by
  rcases Nat.lt_or_eq_of_le h with h | rfl
  · refine Nat.dvd_trans (twoPow_dvd_twoPow ?_) (Nat.dvd_mul_left _ _)
    have hlt : m * twoPow e < twoPow (53 + e) := by
      rw [twoPow_add]; exact (Nat.mul_lt_mul_right (twoPow_pos e)).2 h
    have := log2_lt_of_lt_twoPow hlt (by omega)
    unfold lastPlace; omega
  -- the next power of two is one bit, far above its last place
  · rw [← twoPow_add]
    refine twoPow_dvd_twoPow ?_
    unfold lastPlace; rw [log2_twoPow]; omega

/-! ## Rounding -/

/-- A rounded count has its bits at or above its last place, also where it reaches the limit. -/
theorem twoPow_lastPlace_dvd_round (num den : Nat) :
    twoPow (lastPlace (round num den)) ∣ round num den :=
  twoPow_lastPlace_dvd_mul (significand_le num den)

/-- **A rounded count below the limit is representable.** -/
theorem representable_round {num den : Nat} (h : round num den < limit) :
    Representable (round num den) :=
  ⟨twoPow_lastPlace_dvd_round num den, h⟩

/-- **A representable count is its own rounding**, in whatever denominator it is given; the limit is
not needed, only that nothing stands below the last place. -/
theorem round_mul_right {n : Nat} (h : twoPow (lastPlace n) ∣ n) {den : Nat} (hden : 0 < den) :
    round (n * den) den = n := by
  unfold round
  rw [Nat.mul_div_cancel n hden]
  obtain ⟨m, hm⟩ := h
  generalize lastPlace n = e at hm ⊢
  subst hm
  have : twoPow e * m * den = m * (den * twoPow e) := by
    rw [Nat.mul_comm (twoPow e) m, Nat.mul_assoc, Nat.mul_comm (twoPow e) den]
  rw [this, nearest_mul_right _ (Nat.mul_pos hden (twoPow_pos e)), Nat.mul_comm]

/-- **Rounding does not cross a power of two**: a ratio below one rounds to at most it.  It is said
from `2 ^ 53` on, where there are bits to lose. -/
theorem round_le_twoPow {num den k : Nat} (h : num < den * twoPow k) (hk : 53 ≤ k) :
    round num den ≤ twoPow k := by
  have hq : num / den < twoPow k := by
    rcases Nat.eq_zero_or_pos den with rfl | hden
    · rw [Nat.zero_mul] at h; exact absurd h (Nat.not_lt_zero _)
    · rw [Nat.div_lt_iff_lt_mul hden, Nat.mul_comm]; exact h
  have he : lastPlace (num / den) + 53 ≤ k := by
    have := log2_lt_of_lt_twoPow hq (by omega)
    unfold lastPlace; omega
  calc round num den ≤ twoPow 53 * twoPow (lastPlace (num / den)) :=
        Nat.mul_le_mul_right _ (significand_le num den)
    _ = twoPow (lastPlace (num / den) + 53) := by rw [← twoPow_add, Nat.add_comm]
    _ ≤ twoPow k := twoPow_le_twoPow he

/-- **A ratio below a power of two under the limit** rounds to a representable count. -/
theorem representable_round_of_lt {num den k : Nat} (h : num < den * twoPow k) (hk : 53 ≤ k)
    (hlim : k < limitPlace) : Representable (round num den) :=
  representable_round (Nat.lt_of_le_of_lt (round_le_twoPow h hk) (twoPow_lt_limit hlim))

end ScreenLayout.Units
