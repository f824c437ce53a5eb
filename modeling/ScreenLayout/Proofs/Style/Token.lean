import ScreenLayout.Proofs.Text.Case
import ScreenLayout.Style.Token

/-!
# Proofs/Style/Token — what the text of a token begins with

A number can only begin with a digit, a sign or a point, and a colour begins with `#` or a letter, so
no colour reads as a length.

* `Dimension.parse?_eq_none_of_head` — a text that begins with another character is no dimension.
* `Token.exists_munch_of_mem_scan` — every token was taken at its first character.
* `Token.parse?_text_of_isColor` — the text of a colour is no dimension.
-/

namespace ScreenLayout

/-! ## Trimmed texts -/

namespace Text

theorem dropEndWhile_cons_of_not {p : Char → Bool} {c : Char} (hc : p c = false) (cs : List Char) :
    dropEndWhile p (c :: cs) = c :: dropEndWhile p cs := by
  have hstop : [c].dropWhile p = [c] := by rw [List.dropWhile_cons, hc]; rfl
  rw [dropEndWhile, dropEndWhile, List.reverse_cons, List.dropWhile_append, hstop]
  split
  · rename_i hempty
    rw [List.isEmpty_iff.1 hempty]
    rfl
  · rw [List.reverse_append]
    rfl

/-- Trimming keeps the first character of a text that begins with none to trim. -/
theorem trim_cons_of_not_isBlank {c : Char} (hc : isBlank c = false) (cs : List Char) :
    trim (c :: cs) = c :: trimEnd cs := by
  have hstart : trimStart (c :: cs) = c :: cs := by rw [trimStart, List.dropWhile_cons, hc]; rfl
  rw [trim, hstart, trimEnd, dropEndWhile_cons_of_not hc]
  rfl

end Text

/-! ## Texts that are no numbers -/

/-- The characters a number can begin with, digits aside. -/
def numberMarks : List Char := ['-', '+', '.']

namespace Numeral

theorem splitSign_of_head {c : Char} (hc : c ∉ numberMarks) (cs : List Char) :
    splitSign (c :: cs) = ([], c :: cs) := by
  unfold splitSign
  split <;> simp_all [numberMarks]

/-- No word for a number begins with a character that is no letter. -/
theorem word?_eq_none_of_head {c : Char} (hc : c.isAlpha = false) (negative : Bool)
    (cs : List Char) : word? negative (c :: cs) = none := by
  have hne : ∀ d ds, d.isAlpha = true → (c :: cs).map Char.toLower ≠ d :: ds := by
    rintro d ds hd heq
    rw [List.map_cons, Text.toLower_of_not_isAlpha hc] at heq
    rw [(List.cons.inj heq).1, hd] at hc
    cases hc
  unfold word?
  rw [if_neg, if_neg]
  · exact hne 'n' _ rfl
  · rintro (h | h)
    · exact hne 'i' _ rfl h
    · exact hne 'i' _ rfl h

theorem decimal?_eq_none_of_head {c : Char} (hdigit : c.isDigit = false) (hc : c ∉ numberMarks)
    (negative : Bool) (cs : List Char) : decimal? negative (c :: cs) = none := by
  have hdigits : digits (c :: cs) = [] := by rw [digits, List.takeWhile_cons, hdigit]; rfl
  have hafter : afterDigits (c :: cs) = c :: cs := by
    rw [afterDigits, List.dropWhile_cons, hdigit]; rfl
  have hfraction : splitFraction (c :: cs) = ([], c :: cs) := by
    unfold splitFraction
    split <;> simp_all [numberMarks]
  unfold decimal?
  rw [hdigits, hafter, hfraction]
  rfl

end Numeral

/-- **A number begins with a digit, a sign, a point or a letter.** -/
theorem FiniteDouble.parse?_eq_none_of_head {c : Char} (hdigit : c.isDigit = false)
    (halpha : c.isAlpha = false) (hc : c ∉ numberMarks) (cs : List Char) :
    FiniteDouble.parse? (c :: cs) = none := by
  have hnone : Double.parse? (c :: cs) = none := by
    unfold Double.parse?
    rw [Numeral.splitSign_of_head hc]
    dsimp only
    rw [Numeral.word?_eq_none_of_head halpha, Numeral.decimal?_eq_none_of_head hdigit hc]
    rfl
  rw [FiniteDouble.parse?, hnone, Option.bind_none]

/-- **A dimension begins with a digit, a sign or a point.** -/
theorem Dimension.parse?_eq_none_of_head {c : Char} (hblank : Text.isBlank c = false)
    (hdigit : c.isDigit = false) (hc : c ∉ numberMarks) (cs : List Char) :
    Dimension.parse? (c :: cs) = none := by
  unfold Dimension.parse?
  rw [Text.trim_cons_of_not_isBlank hblank]
  cases hsuffix : isSuffixStart c with
  | true =>
    -- the unit would start at once, with no digit before it
    have hnumber : (c :: Text.trimEnd cs).takeWhile (!isSuffixStart ·) = [] := by
      rw [List.takeWhile_cons, hsuffix]; rfl
    dsimp only
    rw [hnumber]
    rfl
  | false =>
    have halpha : c.isAlpha = false := (Bool.or_eq_false_iff.1 hsuffix).1
    have hnumber : (c :: Text.trimEnd cs).takeWhile (!isSuffixStart ·)
        = c :: (Text.trimEnd cs).takeWhile (!isSuffixStart ·) := by
      rw [List.takeWhile_cons, hsuffix]; rfl
    dsimp only
    rw [hnumber, Text.trimEnd, Text.dropEndWhile_cons_of_not hblank,
      FiniteDouble.parse?_eq_none_of_head hdigit halpha hc]
    split <;> rfl

/-! ## Tokens -/

namespace Token

theorem exists_munch_of_mem_scanFrom {t : Token} {passed : Nat} {cs : List Char}
    (ht : t ∈ scanFrom passed cs) :
    ∃ c rest tail, munch c rest = .token t.kind tail ∧ t.text = c :: tail := by
  induction cs generalizing passed with
  | nil => cases passed <;> cases ht
  | cons c cs ih =>
    cases passed with
    | succ passed => exact ih ht
    | zero =>
      rw [scanFrom] at ht
      cases hmunch : munch c cs with
      | token kind tail =>
        rw [hmunch] at ht
        rcases List.mem_cons.1 ht with rfl | ht
        · exact ⟨c, cs, tail, hmunch, rfl⟩
        · exact ih ht
      | skip => rw [hmunch] at ht; exact ih ht
      | swallow => rw [hmunch] at ht; cases ht

/-- **Every token was taken at its first character.** -/
theorem exists_munch_of_mem_scan {t : Token} {cs : List Char} (ht : t ∈ scan cs) :
    ∃ c rest tail, munch c rest = .token t.kind tail ∧ t.text = c :: tail :=
  exists_munch_of_mem_scanFrom ht

/-- The kinds of tokens that can denote a colour. -/
def colorKinds : List TokenKind := [.hexColor, .functionColor, .ident]

theorem kind_of_isColor {t : Token} (ht : t.isColor) : t.kind ∈ colorKinds := by
  unfold isColor at ht
  cases hkind : t.kind <;> rw [hkind] at ht <;> first | decide | cases ht

theorem munchNumber_kind {cs tail : List Char} {kind : TokenKind}
    (h : munchNumber cs = .token kind tail) : kind ∉ colorKinds := by
  unfold munchNumber at h
  split at h
  · cases h
  · split at h <;> cases h <;> decide

/-- **A colour begins with `#` or as a word does.** -/
theorem kind_of_munch {c : Char} {rest tail : List Char} {kind : TokenKind}
    (h : munch c rest = .token kind tail) (hhash : c ≠ '#') (hstart : isIdentStart c = false) :
    kind ∉ colorKinds := by
  unfold munch at h
  rw [if_neg hhash, hstart] at h
  split at h
  · cases h; decide
  split at h
  · cases h; decide
  split at h
  · cases h; decide
  split at h
  · cases h; decide
  exact munchNumber_kind h

/-- A letter or an underscore is no blank, digit, sign or point. -/
theorem isBlank_of_isIdentStart {c : Char} (hc : isIdentStart c) : Text.isBlank c = false :=
  Text.isBlank_eq_false_of (by decide) hc

theorem isDigit_of_isIdentStart {c : Char} (hc : isIdentStart c) : c.isDigit = false := by
  have hlow : '9'.val < c.val := by
    rcases Bool.or_eq_true_iff.1 hc with halpha | hbar
    · rcases Bool.or_eq_true_iff.1 halpha with hupper | hlower
      · have hA : 'A'.val ≤ c.val := (of_decide_eq_true hupper).1
        exact UInt32.lt_of_lt_of_le (by decide) hA
      · have ha : 'a'.val ≤ c.val := of_decide_eq_true (Bool.and_eq_true_iff.1 hlower).1
        exact UInt32.lt_of_lt_of_le (by decide) ha
    · rw [eq_of_beq hbar]
      decide
  have hnine : decide (c.val ≤ '9'.val) = false := decide_eq_false (UInt32.not_le.2 hlow)
  exact Bool.and_eq_false_iff.2 (.inr hnine)

/-- **The text of a colour is no dimension.** -/
theorem parse?_text_of_isColor {t : Token} {cs : List Char} (ht : t ∈ scan cs) (hcolor : t.isColor) :
    Dimension.parse? t.text = none := by
  obtain ⟨c, rest, tail, hmunch, htext⟩ := exists_munch_of_mem_scan ht
  rw [htext]
  by_cases hhash : c = '#'
  · subst hhash
    exact Dimension.parse?_eq_none_of_head (by decide) (by decide) (by decide) tail
  · cases hstart : isIdentStart c with
    | false => exact absurd (kind_of_isColor hcolor) (kind_of_munch hmunch hhash hstart)
    | true =>
      exact Dimension.parse?_eq_none_of_head (isBlank_of_isIdentStart hstart)
        (isDigit_of_isIdentStart hstart) (Text.not_mem_of_all (by decide) hstart) tail

end Token

end ScreenLayout
