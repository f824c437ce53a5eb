import Mathlib.Data.List.Forall2
import ScreenLayout.Component.Dispatch
import ScreenLayout.Proofs.Text.Case

/-!
# Proofs/Component/Identifier — one id in several spellings

An id is looked up in its normal form, in which the case of letters, the blanks around it and the
choice between the three marks are gone:

    " Mobile-Header " , "mobile header" , "MOBILE_HEADER"  ──▸  "mobile_header"

Lowering a text looks at the characters around a capital sigma, so it has to be said that none of
these differences is seen from there: letters stay letters, and marks stay marks.

* `AlikeChar`, `AlikeId` — spellings of one id.
* `AlikeId.normalizedId_eq` — they have one normal form.
-/

namespace ScreenLayout

open Text

/-- The marks between the words of an id. -/
def idMarks : List Char := ['-', ' ', '_']

/-- **Characters alike in an id**: equal up to the case of an ASCII letter, or both of them marks. -/
def AlikeChar (c d : Char) : Prop := c.toLower = d.toLower ∨ c ∈ idMarks ∧ d ∈ idMarks

instance : DecidableRel AlikeChar := fun _ _ => inferInstanceAs (Decidable (_ ∨ _))

/-- **Spellings of one id**: without the blanks at their ends they are alike character by
character. -/
def AlikeId (a b : List Char) : Prop := List.Forall₂ AlikeChar (trim a) (trim b)

/-- A mark as it stands in a normal form. -/
def foldMark (c : Char) : Char := if c = '-' ∨ c = ' ' then '_' else c

theorem normalizedId_eq_map (cs : List Char) :
    normalizedId cs = (lower (trim cs)).map foldMark := rfl

variable {c d : Char} {cs ds before before' : List Char}

/-! ## Letters and marks -/

/-- What differs in an alike pair is the case of a letter or the choice of a mark. -/
theorem AlikeChar.eq_or (h : AlikeChar c d) :
    c = d ∨ (c.isAlpha ∧ d.isAlpha ∧ c.toLower = d.toLower) ∨ c ∈ idMarks ∧ d ∈ idMarks := by
  obtain hlower | hmarks := h
  · cases hc : c.isAlpha with
    | false =>
      rw [toLower_of_not_isAlpha hc] at hlower
      exact .inl ((toLower_eq_iff hc).1 hlower.symm).symm
    | true =>
      cases hd : d.isAlpha with
      | false =>
        rw [toLower_of_not_isAlpha hd] at hlower
        exact .inl ((toLower_eq_iff hd).1 hlower)
      | true => exact .inr (.inl ⟨rfl, rfl, hlower⟩)
  · exact .inr (.inr hmarks)

/-- Letters are among the first 128 characters. -/
theorem toNat_lt_of_isAlpha (hc : c.isAlpha) : c.toNat < 128 := by
  have hZ : 'Z'.val.toNat = 90 := rfl
  have hz : 'z'.val.toNat = 122 := rfl
  obtain hupper | hlower := Bool.or_eq_true_iff.1 hc
  · have hle := UInt32.le_iff_toNat_le.1 (of_decide_eq_true hupper).2
    exact lt_of_le_of_lt (hle.trans_eq hZ) (by decide)
  · have hle := UInt32.le_iff_toNat_le.1 (of_decide_eq_true (Bool.and_eq_true_iff.1 hlower).2)
    exact lt_of_le_of_lt (hle.trans_eq hz) (by decide)

/-- A letter is seen: it is cased, not looked through, and lowered by itself. -/
theorem letter_seen (hc : c.isAlpha) : Case.inRanges Case.ignorableRanges c = false
    ∧ Case.inRanges Case.casedRanges c = true ∧ c ≠ 'Σ' ∧ Case.isAscii c = true := by
  have hall : ∀ n : Fin 128, (Char.ofNat n).isAlpha →
      Case.inRanges Case.ignorableRanges (Char.ofNat n) = false
        ∧ Case.inRanges Case.casedRanges (Char.ofNat n) = true ∧ Char.ofNat n ≠ 'Σ'
        ∧ Case.isAscii (Char.ofNat n) = true := by decide +kernel
  have hof := hall ⟨c.toNat, toNat_lt_of_isAlpha hc⟩
  rw [Char.ofNat_toNat] at hof
  exact hof hc

/-- A mark ends a word: it is neither cased nor looked through, and comes out as an underscore. -/
theorem mark_seen (hc : c ∈ idMarks) : Case.inRanges Case.ignorableRanges c = false
    ∧ Case.inRanges Case.casedRanges c = false ∧ c ≠ 'Σ'
    ∧ (Case.lowerChar c).map foldMark = ['_'] := by
  simp only [idMarks, List.mem_cons, List.not_mem_nil, or_false] at hc
  obtain rfl | rfl | rfl := hc
  all_goals decide +kernel

/-- **Alike characters are seen alike** from a capital sigma. -/
theorem AlikeChar.inRanges_eq (h : AlikeChar c d) :
    Case.inRanges Case.ignorableRanges c = Case.inRanges Case.ignorableRanges d
      ∧ Case.inRanges Case.casedRanges c = Case.inRanges Case.casedRanges d := by
  obtain rfl | ⟨hc, hd, -⟩ | ⟨hc, hd⟩ := h.eq_or
  · exact ⟨rfl, rfl⟩
  · obtain ⟨hskipc, hcasedc, -⟩ := letter_seen hc
    obtain ⟨hskipd, hcasedd, -⟩ := letter_seen hd
    exact ⟨hskipc.trans hskipd.symm, hcasedc.trans hcasedd.symm⟩
  · obtain ⟨hskipc, hcasedc, -⟩ := mark_seen hc
    obtain ⟨hskipd, hcasedd, -⟩ := mark_seen hd
    exact ⟨hskipc.trans hskipd.symm, hcasedc.trans hcasedd.symm⟩

/-! ## Lowering alike texts -/

theorem meetsCased_cons (c : Char) (cs : List Char) : Case.meetsCased (c :: cs)
    = if Case.inRanges Case.ignorableRanges c then Case.meetsCased cs
      else Case.inRanges Case.casedRanges c := by
  rw [Case.meetsCased, List.dropWhile_cons]
  cases Case.inRanges Case.ignorableRanges c <;> rfl

/-- Alike texts begin with a cased letter together. -/
theorem meetsCased_eq (h : List.Forall₂ AlikeChar cs ds) :
    Case.meetsCased cs = Case.meetsCased ds := by
  induction h with
  | nil => rfl
  | cons hchar _ ih =>
    obtain ⟨hskip, hcased⟩ := hchar.inRanges_eq
    rw [meetsCased_cons, meetsCased_cons, ih, hskip, hcased]

/-- **Alike characters come to the same**, whatever a capital sigma becomes. -/
theorem AlikeChar.map_image_eq (h : AlikeChar c d) (sigma : List Char) :
    (if c = 'Σ' then sigma else Case.lowerChar c).map foldMark
      = (if d = 'Σ' then sigma else Case.lowerChar d).map foldMark := by
  obtain rfl | ⟨hc, hd, hlower⟩ | ⟨hc, hd⟩ := h.eq_or
  · rfl
  · obtain ⟨-, -, hcsigma, hcascii⟩ := letter_seen hc
    obtain ⟨-, -, hdsigma, hdascii⟩ := letter_seen hd
    rw [if_neg hcsigma, if_neg hdsigma, Case.lowerChar, Case.lowerChar, if_pos hcascii,
      if_pos hdascii, hlower]
  · obtain ⟨-, -, hcsigma, hcmark⟩ := mark_seen hc
    obtain ⟨-, -, hdsigma, hdmark⟩ := mark_seen hd
    rw [if_neg hcsigma, if_neg hdsigma, hcmark, hdmark]

/-- Alike texts after alike texts are lowered to the same but for their marks. -/
theorem map_lowerAfter_eq (h : List.Forall₂ AlikeChar cs ds)
    (hbefore : List.Forall₂ AlikeChar before before') :
    (Case.lowerAfter before cs).map foldMark = (Case.lowerAfter before' ds).map foldMark := by
  induction h generalizing before before' with
  | nil => rfl
  | @cons c d cs ds hchar hrest ih =>
    rw [Case.lowerAfter, Case.lowerAfter, List.map_append, List.map_append,
      meetsCased_eq hbefore, meetsCased_eq hrest, hchar.map_image_eq, ih (.cons hchar hbefore)]

/-- **Spellings of one id have one normal form.** -/
theorem AlikeId.normalizedId_eq (h : AlikeId cs ds) : normalizedId cs = normalizedId ds := by
  rw [normalizedId_eq_map, normalizedId_eq_map]
  exact map_lowerAfter_eq h .nil

end ScreenLayout
