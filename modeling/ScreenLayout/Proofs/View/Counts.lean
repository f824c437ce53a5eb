import ScreenLayout.Proofs.Number.Whole
import ScreenLayout.Proofs.Value.Aliases

/-!
# Proofs/View/Counts — whole numbers out of props

Two props are numbers that a view shows as whole ones, each within a machine word.

    interval of a carousel      rounded, if above zero; 3000 otherwise
    line limit of a text        cut, if at least one; none otherwise

The limit is checked against the least number that is cut to one.  The interval is checked against zero
and rounded after that, so the numbers above zero and below a half all come out as no time at all.

* `View.intervalMs_pos_iff` — which intervals are positive.
* `View.counts_rounded` — both counts, exactly; `View.not_forall_interval_pos` — a quarter.
-/

namespace ScreenLayout.View

variable {c : Config} {props : Json} {o : Option FiniteDouble} {x : FiniteDouble}

/-- The greatest word of 64 bits. -/
def maxWord64 : Nat := 2 ^ 64 - 1

/-- The greatest word of 32 bits. -/
def maxWord32 : Nat := 2 ^ 32 - 1

/-! ## Intervals -/

/-- **A number above zero as an interval**: rounded, and the greatest word beyond that. -/
theorem toNat_intervalMs_of_pos (h : 0 < x.toRat) :
    (intervalMs (some x)).toNat = min (round x.toRat).toNat maxWord64 := by
  have hfilter : (some x).filter (fun x => decide (FiniteDouble.zero < x)) = some x :=
    Option.filter_some_pos (decide_eq_true (FiniteDouble.zero_lt_iff.2 h))
  have hlt : min x.wholeMagnitude (UInt64.size - 1) < 2 ^ 64 :=
    Nat.lt_of_le_of_lt (Nat.min_le_right _ _) (by decide)
  rw [intervalMs, hfilter]
  exact (UInt64.toNat_ofNat_of_lt' hlt).trans (by rw [FiniteDouble.wholeMagnitude_eq h]; rfl)

/-- **Without a number above zero** the interval is the default. -/
theorem intervalMs_of_not_pos (h : ∀ x ∈ o, x.toRat ≤ 0) : intervalMs o = defaultInterval := by
  have hfilter : o.filter (fun x => decide (FiniteDouble.zero < x)) = none := by
    rw [Option.filter_eq_none_iff]
    intro x hx
    exact fun hpos => absurd (FiniteDouble.zero_lt_iff.1 (of_decide_eq_true hpos)) (h x hx).not_gt
  rw [intervalMs, hfilter]

/-- **An interval is positive** unless it is made of a number above zero and below a half. -/
theorem intervalMs_pos_iff :
    1 ≤ (intervalMs o).toNat ↔ ∀ x ∈ o, 0 < x.toRat → 1 / 2 ≤ x.toRat := by
  by_cases hpos : ∃ x ∈ o, 0 < x.toRat
  · obtain ⟨x, rfl, hx⟩ := hpos
    have hround : 1 ≤ (intervalMs (some x)).toNat ↔ 1 ≤ x.wholeMagnitude := by
      rw [toNat_intervalMs_of_pos hx, ← FiniteDouble.wholeMagnitude_eq hx, Nat.le_min]
      exact and_iff_left (by decide)
    rw [hround, Nat.one_le_iff_ne_zero, ne_eq, FiniteDouble.wholeMagnitude_eq_zero_iff hx, not_lt]
    constructor
    · rintro hhalf _ ⟨⟩ _
      exact hhalf
    · intro hall
      exact hall x rfl hx
  · rw [intervalMs_of_not_pos fun x hx => not_lt.1 fun hlt => hpos ⟨x, hx, hlt⟩]
    constructor
    · intro _ x hx hlt
      exact absurd ⟨x, hx, hlt⟩ hpos
    · intro _
      decide

/-! ## Line limits -/

/-- **A text has no line limit** without a number of at least one. -/
theorem lineLimit_eq_none_iff : lineLimit o = none ↔ ∀ x ∈ o, x.toRat < 1 := by
  rw [lineLimit, Option.map_eq_none_iff, Option.filter_eq_none_iff]
  refine forall₂_congr fun x _ => ?_
  rw [decide_eq_true_eq, FiniteDouble.one_le_iff, not_le]

/-- **A line limit is a number cut**, at least one and at most the greatest word. -/
theorem exists_of_lineLimit_eq_some {n : UInt32} (h : lineLimit o = some n) :
    1 ≤ n.toNat ∧ n.toNat ≤ maxWord32
      ∧ ∃ x ∈ o, 1 ≤ x.toRat ∧ n.toNat = min ⌊x.toRat⌋₊ maxWord32 := by
  obtain ⟨x, hx, rfl⟩ := Option.map_eq_some_iff.1 h
  obtain ⟨hmem, hone⟩ := Option.filter_eq_some_iff.1 hx
  have hle : 1 ≤ x.toRat := FiniteDouble.one_le_iff.1 (of_decide_eq_true hone)
  have hlt : min x.truncMagnitude (UInt32.size - 1) < 2 ^ 32 :=
    Nat.lt_of_le_of_lt (Nat.min_le_right _ _) (by decide)
  have hcount : (UInt32.ofNat (min x.truncMagnitude (UInt32.size - 1))).toNat
      = min x.truncMagnitude maxWord32 := UInt32.toNat_ofNat_of_lt' hlt
  rw [hcount]
  refine ⟨Nat.le_min.2 ⟨FiniteDouble.one_le_truncMagnitude hle, by decide⟩, Nat.min_le_right _ _,
    x, hmem, hle, ?_⟩
  rw [FiniteDouble.truncMagnitude_eq (zero_lt_one.trans_le hle)]

/-! ## Both -/

/-- **The number an interval is made of**: the first among its keys. -/
def IsInterval (c : Config) (props : Json) (x : FiniteDouble) : Prop :=
  c.resolver.IsFirst c.resolver.number? props ["interval", "intervalMs", "autoplayInterval"] x

/-- **The number a line limit is made of**: the first among its keys. -/
def IsLineCount (c : Config) (props : Json) (x : FiniteDouble) : Prop :=
  c.resolver.IsFirst c.resolver.number? props ["numberOfLines", "maxLines", "lines"] x

/-- **A carousel has an interval and a text may have a line limit**, and neither wraps around.  The
interval is a number above zero rounded, or the default, and it is positive unless the number is below
a half; the limit is a number of at least one cut, and there is none without such a number. -/
theorem counts_rounded (c : Config) (props : Json) :
    (∃ autoplay ms dots, (render c .carousel props).content = .carousel autoplay ms dots
        ∧ (1 ≤ ms.toNat ↔ ∀ x, IsInterval c props x → 0 < x.toRat → 1 / 2 ≤ x.toRat)
        ∧ (∀ x, IsInterval c props x → 0 < x.toRat →
            ms.toNat = min (round x.toRat).toNat maxWord64)
        ∧ ((∀ x, IsInterval c props x → x.toRat ≤ 0) → ms.toNat = 3000))
      ∧ ∃ words limit, (render c .text props).content = .text words limit
        ∧ (limit = none ↔ ∀ x, IsLineCount c props x → x.toRat < 1)
        ∧ ∀ n, limit = some n → 1 ≤ n.toNat ∧ n.toNat ≤ maxWord32
          ∧ ∃ x, IsLineCount c props x ∧ 1 ≤ x.toRat ∧ n.toNat = min ⌊x.toRat⌋₊ maxWord32 := by
  simp only [IsInterval, IsLineCount, ← Resolver.firstNumber?_eq_some_iff]
  refine ⟨⟨_, _, _, rfl, intervalMs_pos_iff, ?_, ?_⟩,
    ⟨_, _, rfl, lineLimit_eq_none_iff, fun _ => exists_of_lineLimit_eq_some⟩⟩
  · intro x hx hpos
    rw [hx, toNat_intervalMs_of_pos hpos]
  · intro hnone
    rw [intervalMs_of_not_pos hnone]
    rfl

/-- **A quarter of a millisecond is no time at all**: not every interval is positive. -/
theorem not_forall_interval_pos :
    ¬ ∀ c props autoplay ms dots,
      (render c .carousel props).content = .carousel autoplay ms dots → 1 ≤ ms.toNat := by
  intro h
  have hcontent : (render {} .carousel
      (.object [("interval", .number (.double FiniteDouble.one.half.half))])).content
      = .carousel false 0 true := by decide +kernel
  exact absurd (h _ _ _ _ _ hcontent) (by decide)

end ScreenLayout.View
