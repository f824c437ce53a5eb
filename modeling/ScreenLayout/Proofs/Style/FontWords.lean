import ScreenLayout.Proofs.Number.ReadBack
import ScreenLayout.Style.Shorthand.Font

/-!
# Proofs/Style/FontWords — the words before the size of a font

A word before the size is the name of a style, a variant or a weight, in any case.  A weight in digits
is read as a whole number, so a hundred may also stand behind a plus sign and noughts.

* `Shorthand.modifierNames`, `Shorthand.PaddedHundred` — the names, and what is accepted besides.
* `Shorthand.isNumericWeight_iff` — the weights in digits.
* `Shorthand.Denotes`, `Shorthand.ofWord?_eq_some_iff` — what a word stands for.
* `Shorthand.isSome_ofWord?_iff` — the words that are accepted.
-/

namespace ScreenLayout.Shorthand

variable {cs word : List Char}

/-! ## Whole numbers -/

theorem exists_eq_digitChar {c : Char} (hc : c.isDigit) : ∃ d < 10, c = Nat.digitChar d := by
  have h0 : '0'.val.toNat = 48 := rfl
  have h9 : '9'.val.toNat = 57 := rfl
  obtain ⟨hlow, hhigh⟩ := (Bool.and_eq_true_iff.1 hc).imp of_decide_eq_true of_decide_eq_true
  have hlow := UInt32.le_iff_toNat_le.1 hlow
  have hhigh := UInt32.le_iff_toNat_le.1 hhigh
  have hvalue : c.toNat = c.val.toNat := rfl
  have hd : c.toNat - 48 < 10 := by omega
  refine ⟨c.toNat - 48, hd, Char.toNat_inj.1 ?_⟩
  rw [Nat.toNat_digitChar_of_lt_ten hd]
  omega

/-- **Digits are noughts, and the digits of the number they spell** unless that is zero. -/
theorem exists_eq_replicate_append_toDigits {ds : List Char} (hds : ∀ c ∈ ds, c.isDigit) :
    ∃ zeros, ds = List.replicate zeros '0' ++ if Nat.ofDigitChars 10 ds 0 = 0 then []
      else Nat.toDigits 10 (Nat.ofDigitChars 10 ds 0) := by
  induction ds using List.reverseRecOn with
  | nil => exact ⟨0, rfl⟩
  | append_singleton ds c ih =>
    obtain ⟨hds, hc⟩ := List.forall_mem_append.1 hds
    obtain ⟨zeros, hzeros⟩ := ih hds
    obtain ⟨d, hd, rfl⟩ := exists_eq_digitChar (hc c List.mem_cons_self)
    have hvalue : Nat.ofDigitChars 10 (ds ++ [Nat.digitChar d]) 0
        = 10 * Nat.ofDigitChars 10 ds 0 + d := by
      rw [Nat.ofDigitChars_append, Nat.ofDigitChars_cons_digitChar_of_lt_ten hd, Nat.ofDigitChars_nil]
    rw [hvalue]
    by_cases hfront : Nat.ofDigitChars 10 ds 0 = 0
    · -- noughts so far: the digit is one more, or the first that counts
      rw [hfront, if_pos rfl, List.append_nil] at hzeros
      rw [hfront, Nat.mul_zero, Nat.zero_add, hzeros]
      by_cases hzero : d = 0
      · refine ⟨zeros + 1, ?_⟩
        rw [if_pos hzero, hzero, List.append_nil, List.replicate_succ']
        rfl
      · refine ⟨zeros, ?_⟩
        rw [if_neg hzero, Nat.toDigits_of_lt_base hd]
    · rw [if_neg hfront] at hzeros
      have hten : 10 ≤ 10 * Nat.ofDigitChars 10 ds 0 + d := by omega
      have hdiv : (10 * Nat.ofDigitChars 10 ds 0 + d) / 10 = Nat.ofDigitChars 10 ds 0 := by omega
      have hmod : (10 * Nat.ofDigitChars 10 ds 0 + d) % 10 = d := by omega
      refine ⟨zeros, ?_⟩
      rw [if_neg (by omega), Nat.toDigits_of_base_le (by decide) hten, hdiv, hmod,
        ← List.append_assoc, ← hzeros]

/-- **A whole number** is digits, behind a plus sign or none. -/
theorem wholeNumber?_eq_some_iff {v : Nat} : wholeNumber? cs = some v ↔
    ∃ sign ds, (sign = [] ∨ sign = ['+']) ∧ ds ≠ [] ∧ (∀ c ∈ ds, c.isDigit) ∧
      Nat.ofDigitChars 10 ds 0 = v ∧ cs = sign ++ ds := by
  have hread : ∀ ds : List Char, ((if ds.isEmpty || !ds.all Char.isDigit then none
      else some (Nat.ofDigitChars 10 ds 0)) = some v) ↔
        ds ≠ [] ∧ (∀ c ∈ ds, c.isDigit) ∧ Nat.ofDigitChars 10 ds 0 = v := by
    intro ds
    rw [Option.ite_none_left_eq_some]
    simp [and_assoc]
  unfold wholeNumber?
  dsimp only
  rw [hread]
  constructor
  · intro h
    split at h
    · rename_i ds
      exact ⟨['+'], ds, .inr rfl, h.1, h.2.1, h.2.2, rfl⟩
    · exact ⟨[], cs, .inl rfl, h.1, h.2.1, h.2.2, rfl⟩
  · rintro ⟨sign, ds, rfl | rfl, hne, hds, hv, rfl⟩
    · split
      · exact absurd (hds '+' List.mem_cons_self) (by decide)
      · exact ⟨hne, hds, hv⟩
    · exact ⟨hne, hds, hv⟩

/-! ## Weights -/

/-- The weights that are numbers. -/
def hundreds : List String := ["100", "200", "300", "400", "500", "600", "700", "800", "900"]

/-- **The names of the weights.** -/
def weightNames : List String := ["bold", "bolder", "lighter"] ++ hundreds

/-- **The names of the words before the size.** -/
def modifierNames : List String := ["normal", "italic", "oblique", "small-caps"] ++ weightNames

/-- **What a whole number may begin with** without a change to its value: a plus sign, noughts, both
or nothing. -/
def IsPad (pad : List Char) : Prop :=
  ∃ sign zeros, (sign = [] ∨ sign = ['+']) ∧ pad = sign ++ List.replicate zeros '0'

/-- **A hundred that does not begin with its own digit**, such as `+400` and `0400`. -/
def PaddedHundred (cs : List Char) : Prop :=
  ∃ pad, IsPad pad ∧ pad ≠ [] ∧ ∃ hundred ∈ hundreds, cs = pad ++ hundred.toList

/-- **The weights that are accepted**: the names, and hundreds that are padded. -/
def IsWeight (cs : List Char) : Prop := (∃ name ∈ weightNames, cs = name.toList) ∨ PaddedHundred cs

/-- **The words that are accepted before the size**, in lower case. -/
def IsModifier (cs : List Char) : Prop :=
  (∃ name ∈ modifierNames, cs = name.toList) ∨ PaddedHundred cs

theorem exists_isPad_iff : (∃ pad, IsPad pad ∧ ∃ hundred ∈ hundreds, cs = pad ++ hundred.toList) ↔
    (∃ hundred ∈ hundreds, cs = hundred.toList) ∨ PaddedHundred cs := by
  constructor
  · rintro ⟨pad, hpad, hundred⟩
    by_cases hnil : pad = []
    · subst hnil
      exact .inl hundred
    · exact .inr ⟨pad, hpad, hnil, hundred⟩
  · rintro (hundred | ⟨pad, hpad, -, hundred⟩)
    · exact ⟨[], ⟨[], 0, .inl rfl, rfl⟩, hundred⟩
    · exact ⟨pad, hpad, hundred⟩

/-- The digits of a hundred. -/
theorem exists_hundred_of_mod {w : Nat} (hlow : 100 ≤ w) (hhigh : w ≤ 900) (hmod : w % 100 = 0) :
    ∃ hundred ∈ hundreds, Nat.toDigits 10 w = hundred.toList := by
  have hall : ∀ k < 9, ∃ hundred ∈ hundreds, Nat.toDigits 10 (100 * (k + 1)) = hundred.toList := by
    decide
  obtain ⟨k, rfl⟩ : ∃ k, w = 100 * (k + 1) := ⟨w / 100 - 1, by omega⟩
  exact hall k (by omega)

/-- **A weight in digits** is a hundred, padded or not. -/
theorem isNumericWeight_iff :
    isNumericWeight cs ↔ (∃ hundred ∈ hundreds, cs = hundred.toList) ∨ PaddedHundred cs := by
  have hspells : ∀ hundred ∈ hundreds, hundred.toList ≠ [] ∧ hundred.toList.all Char.isDigit ∧
      (100 ≤ Nat.ofDigitChars 10 hundred.toList 0 && Nat.ofDigitChars 10 hundred.toList 0 ≤ 900
        && Nat.ofDigitChars 10 hundred.toList 0 % 100 == 0) := by decide
  rw [isNumericWeight, Option.any_eq_true, ← exists_isPad_iff]
  constructor
  · rintro ⟨w, hw, hrange⟩
    obtain ⟨sign, ds, hsign, -, hds, rfl, rfl⟩ := wholeNumber?_eq_some_iff.1 hw
    simp only [Bool.and_eq_true, decide_eq_true_eq, beq_iff_eq] at hrange
    obtain ⟨zeros, hzeros⟩ := exists_eq_replicate_append_toDigits hds
    obtain ⟨hundred, hmem, hundred⟩ := exists_hundred_of_mod hrange.1.1 hrange.1.2 hrange.2
    rw [if_neg (by omega), hundred] at hzeros
    refine ⟨_, ⟨sign, zeros, hsign, rfl⟩, _, hmem, ?_⟩
    rw [List.append_assoc, ← hzeros]
  · rintro ⟨_, ⟨sign, zeros, hsign, rfl⟩, hundred, hmem, rfl⟩
    obtain ⟨hne, hdigits, hrange⟩ := hspells hundred hmem
    refine ⟨_, wholeNumber?_eq_some_iff.2 ⟨sign, List.replicate zeros '0' ++ hundred.toList, hsign,
      List.append_ne_nil_of_right_ne_nil _ hne,
      List.forall_mem_append.2 ⟨?_, List.all_eq_true.1 hdigits⟩, ?_,
      List.append_assoc _ _ _⟩, hrange⟩
    · intro c hc
      rw [List.eq_of_mem_replicate hc]
      rfl
    · rw [Nat.ofDigitChars_append, Nat.ofDigitChars_replicate_zero, Nat.mul_zero]

theorem isWeight_iff : (weightWords.contains cs || isNumericWeight cs) ↔ IsWeight cs := by
  have hwords : weightWords = ["bold", "bolder", "lighter"].map String.toList := rfl
  have hsplit : (∃ name ∈ weightNames, cs = name.toList) ↔
      cs ∈ weightWords ∨ ∃ hundred ∈ hundreds, cs = hundred.toList := by
    simp only [weightNames, hwords, List.mem_append, or_and_right, exists_or, List.mem_map, eq_comm]
  rw [Bool.or_eq_true, isNumericWeight_iff, List.contains_iff_mem, IsWeight, hsplit, or_assoc]

instance : DecidablePred IsWeight := fun _ => decidable_of_iff _ isWeight_iff

/-- A padded hundred is made of digits, and a plus sign at most. -/
theorem eq_plus_or_isDigit_of_mem {pad : List Char} {hundred : String} (hpad : IsPad pad)
    (hmem : hundred ∈ hundreds) : ∀ c ∈ pad ++ hundred.toList, c = '+' ∨ c.isDigit := by
  have hdigits : ∀ hundred ∈ hundreds, hundred.toList.all Char.isDigit := by decide
  obtain ⟨sign, zeros, hsign, rfl⟩ := hpad
  rw [List.forall_mem_append, List.forall_mem_append]
  refine ⟨⟨?_, fun c hc => .inr ?_⟩, fun c hc => .inr (List.all_eq_true.1 (hdigits hundred hmem) c hc)⟩
  · obtain rfl | rfl := hsign
    · exact List.forall_mem_nil _
    · exact List.forall_mem_singleton.2 (.inl rfl)
  · rw [List.eq_of_mem_replicate hc]
    rfl

theorem isAlpha_of_mem_padded {pad : List Char} {hundred : String} (hpad : IsPad pad)
    (hmem : hundred ∈ hundreds) : ∀ c ∈ pad ++ hundred.toList, c.isAlpha = false := by
  intro c hc
  obtain rfl | hdigit := eq_plus_or_isDigit_of_mem hpad hmem c hc
  · rfl
  · exact isAlpha_of_isDigit hdigit

theorem paddedHundred_lowerAscii_iff : PaddedHundred (Text.lowerAscii cs) ↔ PaddedHundred cs := by
  refine exists_congr fun pad => and_congr_right fun hpad => and_congr_right fun _ =>
    exists_congr fun hundred => and_congr_right fun hmem => ?_
  exact Text.lowerAscii_eq_iff (isAlpha_of_mem_padded hpad hmem) cs

theorem isNumericWeight_lowerAscii_iff :
    isNumericWeight (Text.lowerAscii cs) ↔ isNumericWeight cs := by
  rw [isNumericWeight_iff, isNumericWeight_iff, ← exists_isPad_iff, ← exists_isPad_iff]
  refine exists_congr fun pad => and_congr_right fun hpad =>
    exists_congr fun hundred => and_congr_right fun hmem => ?_
  exact Text.lowerAscii_eq_iff (isAlpha_of_mem_padded hpad hmem) cs

/-- **A padded hundred is no name.** -/
theorem PaddedHundred.ne_name (h : PaddedHundred cs) : ∀ name ∈ modifierNames, cs ≠ name.toList := by
  have hnames : ∀ name ∈ modifierNames, '0' ∈ name.toList → name.toList.length = 3 := by decide
  have hhundreds : ∀ hundred ∈ hundreds, '0' ∈ hundred.toList ∧ hundred.toList.length = 3 := by decide
  obtain ⟨pad, -, hne, hundred, hmem, rfl⟩ := h
  intro name hname heq
  obtain ⟨hzero, hlength⟩ := hhundreds hundred hmem
  have hthree := hnames name hname (heq ▸ List.mem_append_right pad hzero)
  rw [← heq, List.length_append, hlength] at hthree
  exact hne (List.length_eq_zero_iff.1 (by omega))

/-- A weight in digits is made of digits, and a plus sign at most. -/
theorem eq_plus_or_isDigit_of_isNumericWeight (h : isNumericWeight cs) :
    ∀ c ∈ cs, c = '+' ∨ c.isDigit := by
  rw [isNumericWeight_iff, ← exists_isPad_iff] at h
  obtain ⟨pad, hpad, hundred, hmem, rfl⟩ := h
  exact eq_plus_or_isDigit_of_mem hpad hmem

/-- Of the modifiers only weights have digits. -/
theorem IsModifier.isNumericWeight_of_isDigit (h : IsModifier cs) {c : Char} (hc : c ∈ cs)
    (hdigit : c.isDigit) : isNumericWeight cs := by
  have hnames : ∀ name ∈ modifierNames, name ∈ hundreds ∨ name.toList.all (!Char.isDigit ·) := by
    decide
  refine isNumericWeight_iff.2 (h.imp_left fun ⟨name, hmem, heq⟩ => ⟨name, ?_, heq⟩)
  refine (hnames name hmem).resolve_right fun hdigits => ?_
  rw [Text.eq_false_of_all hdigits (heq ▸ hc)] at hdigit
  cases hdigit

theorem IsModifier.of_isNumericWeight (h : isNumericWeight cs) : IsModifier cs := by
  have hnames : ∀ hundred ∈ hundreds, hundred ∈ modifierNames := by decide
  exact (isNumericWeight_iff.1 h).imp_left fun ⟨hundred, hmem, heq⟩ =>
    ⟨hundred, hnames hundred hmem, heq⟩

theorem IsWeight.isModifier (h : IsWeight cs) : IsModifier cs :=
  h.imp_left fun ⟨name, hmem, heq⟩ => ⟨name, List.mem_append_right _ hmem, heq⟩

/-- A name, or a padded hundred, is a word. -/
theorem IsModifier.isWord (h : IsModifier cs) : cs ≠ [] ∧ ∀ c ∈ cs, Text.isBlank c = false := by
  have hnames : ∀ name ∈ modifierNames, name.toList ≠ [] ∧ name.toList.all (!Text.isBlank ·) := by
    decide
  have hne : ∀ hundred ∈ hundreds, hundred.toList ≠ [] := by decide
  obtain ⟨name, hmem, rfl⟩ | ⟨pad, hpad, -, hundred, hmem, rfl⟩ := h
  · exact ⟨(hnames name hmem).1, fun c => Text.eq_false_of_all (hnames name hmem).2⟩
  · refine ⟨List.append_ne_nil_of_right_ne_nil _ (hne hundred hmem), fun c hc => ?_⟩
    obtain rfl | hdigit := eq_plus_or_isDigit_of_mem hpad hmem c hc
    · rfl
    · exact Text.isBlank_eq_false_of (by decide) hdigit

/-! ## Modifiers -/

/-- **What the name of a modifier stands for.** -/
inductive Denotes : List Char → FontModifier → Prop
  | normal : Denotes "normal".toList .normal
  | italic : Denotes "italic".toList .italic
  | oblique : Denotes "oblique".toList .italic
  | smallCaps : Denotes "small-caps".toList .smallCaps
  | weight {name : List Char} (h : IsWeight name) : Denotes name (.weight name)

/-- **A word stands for what its name in lower case stands for.** -/
theorem ofWord?_eq_some_iff {m : FontModifier} :
    FontModifier.ofWord? word = some m ↔ Denotes (Text.lowerAscii word) m := by
  have hother : ∀ name ∈ ["normal", "italic", "oblique", "small-caps"], ¬ IsWeight name.toList := by
    decide
  unfold FontModifier.ofWord?
  dsimp only
  generalize Text.lowerAscii word = name
  constructor
  · intro h
    split at h
    · rename_i hname
      cases h
      exact hname ▸ .normal
    split at h
    · rename_i hname
      cases h
      obtain hname | hname := hname
      · exact hname ▸ .italic
      · exact hname ▸ .oblique
    split at h
    · rename_i hname
      cases h
      exact hname ▸ .smallCaps
    split at h
    · rename_i hweight
      cases h
      exact .weight (isWeight_iff.1 hweight)
    · cases h
  · intro h
    cases h with
    | normal => rfl
    | italic => rfl
    | oblique => rfl
    | smallCaps => rfl
    | weight h =>
      have hne : ∀ name' ∈ ["normal", "italic", "oblique", "small-caps"], name ≠ name'.toList :=
        fun name' hmem heq => hother name' hmem (heq ▸ h)
      rw [if_neg (hne "normal" (by decide)), if_neg (not_or.2 ⟨hne "italic" (by decide),
        hne "oblique" (by decide)⟩), if_neg (hne "small-caps" (by decide)), if_pos (isWeight_iff.2 h)]

/-- **A weight is written as its word**, in lower case. -/
theorem ofWord?_eq_weight_iff {weight : List Char} :
    FontModifier.ofWord? word = some (.weight weight)
      ↔ IsWeight weight ∧ Text.lowerAscii word = weight := by
  rw [ofWord?_eq_some_iff]
  constructor
  · intro h
    generalize Text.lowerAscii word = name at h ⊢
    cases h with
    | weight h => exact ⟨h, rfl⟩
  · rintro ⟨h, rfl⟩
    exact .weight h

/-- **A word is accepted before the size** by its name, or as a padded hundred. -/
theorem isSome_ofWord?_iff :
    (FontModifier.ofWord? word).isSome ↔ IsModifier (Text.lowerAscii word) := by
  rw [Option.isSome_iff_exists]
  simp only [ofWord?_eq_some_iff]
  constructor
  · rintro ⟨m, hm⟩
    generalize Text.lowerAscii word = name at hm ⊢
    cases hm with
    | weight h => exact h.isModifier
    | normal => exact .inl ⟨"normal", by decide, rfl⟩
    | italic => exact .inl ⟨"italic", by decide, rfl⟩
    | oblique => exact .inl ⟨"oblique", by decide, rfl⟩
    | smallCaps => exact .inl ⟨"small-caps", by decide, rfl⟩
  · rintro (⟨name, hmem, heq⟩ | hpadded)
    · rw [heq]
      obtain hstyle | hweight := List.mem_append.1 hmem
      · simp only [List.mem_cons, List.not_mem_nil, or_false] at hstyle
        obtain rfl | rfl | rfl | rfl := hstyle
        · exact ⟨_, .normal⟩
        · exact ⟨_, .italic⟩
        · exact ⟨_, .oblique⟩
        · exact ⟨_, .smallCaps⟩
      · exact ⟨_, .weight (.inl ⟨name, hweight, rfl⟩)⟩
    · exact ⟨_, .weight (.inr hpadded)⟩

end ScreenLayout.Shorthand
