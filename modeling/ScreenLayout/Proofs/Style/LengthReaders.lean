import ScreenLayout.Proofs.Number.Prefix
import ScreenLayout.Proofs.Style.Data
import ScreenLayout.Proofs.Style.Patches
import ScreenLayout.Proofs.Style.TokenLength
import ScreenLayout.Proofs.Value.Resolved
import ScreenLayout.View.Render

/-!
# Proofs/Style/LengthReaders — the strict and the lenient reader of lengths

A style keeps the number of a text that is a length to its end; a component reads the number that a
text begins with.  What follows the number in a length has no digit, so the lenient reader stops where
the strict one does:

    +2. EM   ──▸   2, a point, a blank and a unit   ──▸   2   by both

* `Dimension.leadingNumber?_of_parse?` — a length begins with its own number.
* `Dimension.readers_agree` — a component reads the number that a style keeps.
-/

namespace ScreenLayout

open Numeral

namespace Dimension

variable {cs : List Char} {d : Dimension}

/-- **A length is a numeral and what has no digit.** -/
theorem exists_trimStart_eq_of_parse? (h : parse? cs = some d) : ∃ sign body rest,
    sign ∈ signPattern ∧ body ∈ TokenKind.unsigned ∧ (∀ c ∈ rest, c.isDigit = false) ∧
      Text.trimStart cs = sign ++ (body ++ rest) ∧
        (spelled (sign ++ body)).toDouble = .finite d.value := by
  obtain ⟨-, -, hunit⟩ := parse?_eq_some_iff.1 h
  obtain ⟨sign, body, point, hsign, hbody, hpoint, hnumber, hvalue⟩ := exists_numeral_of_parse? h
  obtain ⟨blanks, hfront, hblanks⟩ :=
    Text.exists_eq_append_trimEnd ((Text.trim cs).takeWhile (!isSuffixStart ·))
  obtain ⟨back, hback, hend⟩ := Text.exists_eq_append_trimEnd (Text.trimStart cs)
  have htext : Text.trimStart cs = numberText cs ++ blanks ++ suffixText cs ++ back := by
    have hsplit := List.takeWhile_append_dropWhile (p := (!isSuffixStart ·)) (l := Text.trim cs)
    rw [hfront] at hsplit
    rw [← Text.trim, ← hsplit] at hback
    exact hback
  refine ⟨sign, body, point ++ blanks ++ suffixText cs ++ back, hsign, hbody, ?_, ?_, hvalue⟩
  · simp only [List.forall_mem_append]
    refine ⟨⟨⟨?_, fun c hc => ?_⟩, fun c hc => ?_⟩, fun c hc => ?_⟩
    · obtain rfl | rfl := hpoint
      · exact fun c hc => absurd hc List.not_mem_nil
      · exact fun c hc => by rw [List.mem_singleton.1 hc]; rfl
    · exact Text.eq_false_of_isBlank (by decide) (hblanks c hc)
    · exact isDigit_of_isSuffixStart (isSuffixStart_of_unit? hunit c hc)
    · exact Text.eq_false_of_isBlank (by decide) (hend c hc)
  · rw [htext, hnumber]
    simp only [List.append_assoc]

/-- **A length begins with its own number**: whatever the strict reader accepts, the lenient one reads
alike. -/
theorem leadingNumber?_of_parse? (h : parse? cs = some d) : leadingNumber? cs = some d.value := by
  obtain ⟨sign, body, rest, hsign, hbody, hrest, htext, hvalue⟩ := exists_trimStart_eq_of_parse? h
  have hprefix : numeralPrefix? (Text.trimStart cs) = some (sign ++ body) := by
    rw [htext, numeralPrefix?_of_parts hsign hbody
      (fun c hc => hrest c (List.mem_of_mem_head? hc)) (splitPointDigits_of_no_digit hrest),
      exponentPart_of_no_digit hrest, List.append_nil]
  rw [leadingNumber?_of_numeralPrefix? hprefix, hvalue, Double.finite?_finite]

/-- **The strict and the lenient reader agree.**  A text that is a length begins with its number, so
the number a component reads from it is the one that a style keeps. -/
theorem readers_agree {s : String} (h : parse? s.toList = some d) :
    leadingNumber? s.toList = some d.value ∧ Json.toNumber? (.string s) = some d.value ∧
      ∀ (c : Config) (props : Json) (key : String) (keys : List String),
        c.resolver.resolved? props key = some (.string s) →
          c.resolver.firstNumber? props (key :: keys) = some d.value ∧
            ∀ name v, Rule.ofName (canonicalName name) = .length →
              c.resolver.unwrap v = some (.string s) →
                (compile c [(name, v)]).style.number? (canonicalName name)
                  = some (.finite d.value) := by
  have hnumber := leadingNumber?_of_parse? h
  refine ⟨hnumber, hnumber, fun c props key keys hprops => ⟨?_, fun name v hrule hv => ?_⟩⟩
  · have hread : c.resolver.number? (c.resolver.field? props key) = some d.value := by
      change (c.resolver.resolved? props key).bind Json.toNumber? = some d.value
      rw [hprops]
      exact hnumber
    rw [Resolver.firstNumber?, List.findSome?_cons, hread]
  · have hlength : StyleValue.ofLength (.string s) = .number d.value := by
      rw [StyleValue.ofLength, h]
    have hpatch : (compileEntry c (name, v)).patch
        = .one (canonicalName name) (.number d.value) := by
      refine patch_compileEntry_of_ok hv ?_
      rw [hrule, Rule.patch, hlength]
    have hget : (styleAlone c (name, v)).get? (canonicalName name) = some (.number d.value) := by
      rw [styleAlone_eq, hpatch, get?_apply_one, if_pos rfl]
    exact congrArg (Option.bind · StyleValue.number?) hget

/-- A plus sign, a point that no digit follows, blanks and a unit in capitals. -/
theorem readers_agree_em :
    parse? " +2. EM ".toList = some ⟨.ofUInt64 2, some .em⟩ ∧
      leadingNumber? " +2. EM ".toList = some (.ofUInt64 2) := by
  have hread : parse? " +2. EM ".toList = some ⟨.ofUInt64 2, some .em⟩ := by decide +kernel
  exact ⟨hread, (readers_agree hread).1⟩

end Dimension

end ScreenLayout
