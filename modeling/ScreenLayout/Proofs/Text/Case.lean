import ScreenLayout.Proofs.Text.Blank
import ScreenLayout.Text.Case

/-!
# Proofs/Text/Case — texts in lower case

Lowering ASCII letters changes nothing but letters, and makes nothing but letters.  So blanks and
marks stay where they are, and it does not matter whether a text is trimmed before or after.

* `Text.toLower_eq_iff`, `Text.lowerAscii_eq_iff` — what has no letter is lowered from itself only.
* `Text.toUpper_toLower` — a capital comes back when it is lowered and raised.
* `Text.trim_lowerAscii` — trimming and lowering.
-/

namespace ScreenLayout.Text

theorem toLower_of_not_isAlpha {c : Char} (hc : c.isAlpha = false) : c.toLower = c := by
  have hupper : c.isUpper = false := (Bool.or_eq_false_iff.1 hc).1
  exact dif_neg (of_decide_eq_false hupper)

theorem isLower_toLower {c : Char} (hc : c.isUpper) : c.toLower.isLower := by
  have hA : 'A'.val.toNat = 65 := rfl
  have hZ : 'Z'.val.toNat = 90 := rfl
  have ha : 'a'.val.toNat = 97 := rfl
  have hz : 'z'.val.toNat = 122 := rfl
  have hshift : ('a'.val - 'A'.val).toNat = 32 := rfl
  have hrange := of_decide_eq_true hc
  have hval : c.toLower.val = c.val + ('a'.val - 'A'.val) := congrArg Char.val (dif_pos hrange)
  refine Bool.and_eq_true_iff.2 ⟨decide_eq_true ?_, decide_eq_true ?_⟩
  all_goals
    simp only [hval, UInt32.le_iff_toNat_le, UInt32.toNat_add, ge_iff_le] at hrange ⊢
    omega

theorem not_isUpper_of_isLower {c : Char} (hc : c.isLower) : ¬ c.isUpper := by
  have hZ : 'Z'.val.toNat = 90 := rfl
  have ha : 'a'.val.toNat = 97 := rfl
  intro hupper
  have hsmall := UInt32.le_iff_toNat_le.1 (of_decide_eq_true (Bool.and_eq_true_iff.1 hc).1)
  have hcapital := UInt32.le_iff_toNat_le.1 (of_decide_eq_true hupper).2
  omega

/-- Raising what was lowered gives the capital back. -/
theorem toUpper_toLower {c : Char} (hc : c.isUpper) : c.toLower.toUpper = c := by
  have hZ : 'Z'.val.toNat = 90 := rfl
  have hdown : ('a'.val - 'A'.val).toNat = 32 := rfl
  have hup : ('A'.val - 'a'.val).toNat = 4294967264 := by decide +kernel
  have hsmall : 'a'.val ≤ c.toLower.val ∧ c.toLower.val ≤ 'z'.val :=
    (Bool.and_eq_true_iff.1 (isLower_toLower hc)).imp of_decide_eq_true of_decide_eq_true
  have hcapital := UInt32.le_iff_toNat_le.1 (of_decide_eq_true hc).2
  have hlower : c.toLower.val = c.val + ('a'.val - 'A'.val) :=
    congrArg Char.val (dif_pos (of_decide_eq_true hc))
  have hraised : ∀ d : Char, 'a'.val ≤ d.val ∧ d.val ≤ 'z'.val →
      d.toUpper.val = d.val + ('A'.val - 'a'.val) := by
    intro d h
    unfold Char.toUpper
    rw [dif_pos h]
  refine Char.ext (UInt32.toNat_inj.1 ?_)
  simp only [hraised _ hsmall, hlower, UInt32.toNat_add, hdown, hup]
  omega

/-- A small letter is raised to one character. -/
theorem Case.upperChar_of_isLower {c : Char} (hc : c.isLower) : upperChar c = [c.toUpper] := by
  have hz : 'z'.val.toNat = 122 := rfl
  have hsmall := UInt32.le_iff_toNat_le.1 (of_decide_eq_true (Bool.and_eq_true_iff.1 hc).2)
  have hascii : c.val.toNat < 128 := by omega
  exact if_pos (decide_eq_true hascii)

/-- Lowering a letter makes no blank, and no blank is a letter. -/
theorem isBlank_toLower (c : Char) : isBlank c.toLower = isBlank c := by
  cases hupper : c.isUpper with
  | false =>
    have hsame : c.toLower = c := dif_neg (of_decide_eq_false hupper)
    rw [hsame]
  | true =>
    have hletter : isBlank c = false := isBlank_eq_false_of (p := Char.isUpper) (by decide) hupper
    have hlower : isBlank c.toLower = false :=
      isBlank_eq_false_of (p := Char.isLower) (by decide) (isLower_toLower hupper)
    rw [hletter, hlower]

theorem isAlpha_toLower {c : Char} (hc : c.isAlpha) : c.toLower.isAlpha := by
  cases hupper : c.isUpper with
  | true => exact Bool.or_eq_true_iff.2 (.inr (isLower_toLower hupper))
  | false =>
    have hsame : c.toLower = c := dif_neg (of_decide_eq_false hupper)
    rwa [hsame]

/-- **What is no letter is lowered from itself only.** -/
theorem toLower_eq_iff {c d : Char} (hd : d.isAlpha = false) : c.toLower = d ↔ c = d := by
  constructor
  · rintro rfl
    cases hc : c.isAlpha with
    | false => exact (toLower_of_not_isAlpha hc).symm
    | true => exact absurd (isAlpha_toLower hc) (Bool.eq_false_iff.1 hd)
  · rintro rfl
    exact toLower_of_not_isAlpha hd

/-- **A text without letters is lowered from itself only.** -/
theorem lowerAscii_eq_iff {ds : List Char} (hds : ∀ d ∈ ds, d.isAlpha = false) (cs : List Char) :
    lowerAscii cs = ds ↔ cs = ds := by
  induction ds generalizing cs with
  | nil => exact List.map_eq_nil_iff
  | cons d ds ih =>
    obtain ⟨hd, hds⟩ := List.forall_mem_cons.1 hds
    cases cs with
    | nil => exact ⟨nofun, nofun⟩
    | cons c cs =>
      have hrest : lowerAscii (c :: cs) = c.toLower :: lowerAscii cs := rfl
      rw [hrest, List.cons_eq_cons, List.cons_eq_cons, toLower_eq_iff hd, ih hds]

/-! ## Trimming -/

theorem trim_lowerAscii (cs : List Char) : trim (lowerAscii cs) = lowerAscii (trim cs) := by
  have hblank : (isBlank ∘ Char.toLower) = isBlank := funext isBlank_toLower
  simp only [trim, trimStart, trimEnd, dropEndWhile, lowerAscii, List.dropWhile_map, hblank,
    ← List.map_reverse]

/-- A text in lower case without blanks at its ends stays when it is trimmed and lowered. -/
theorem lowerAscii_trim_of_lowered (cs : List Char) :
    lowerAscii (trim (lowerAscii (trim cs))) = lowerAscii (trim cs) := by
  rw [trim_lowerAscii, trim_trim, lowerAscii_idem]

end ScreenLayout.Text
