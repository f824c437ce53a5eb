import Mathlib.Data.List.Basic
import ScreenLayout.Proofs.Style.Expansion
import ScreenLayout.Proofs.Style.Merge
import ScreenLayout.Proofs.Style.Separation

/-!
# Proofs/Style/PartOrder — the parts of a border and of a shadow in any order

The tokens of a text of several parts are those of its parts, one after the other, if no part leaves
a colour function open.  So other orders of the parts are other orders of the tokens.  A border keeps
the last token of each sort, a shadow its lengths in their order and its first colour; with no more
than one token where only one counts, the order makes no difference.

    1px solid rgba(0, 0, 0, .5)   and   rgba(0, 0, 0, .5) 1px solid   ──▸   the same border

* `Token.scan_spaced`, `Text.words_spaced` — a text read part by part.
* `Token.AtMostOne` — a text has no more than one token of a sort.
* `Shorthand.border_perm`, `Shorthand.boxShadow_perm` — the patch of the parts in another order.
* `Shorthand.parts_in_any_order` — the style they leave, or that they are refused.
-/

namespace ScreenLayout

variable {parts parts' : List (List Char)}

/-! ## Parts with spaces between them -/

/-- Parts with a space between each two. -/
def Text.spaced (parts : List (List Char)) : List Char := joined [' '] parts

/-- **What is read piece by piece** at each space is read part by part. -/
theorem spaced_eq_flatMap {β : Type} {f : List Char → List β} (hnil : f [] = [])
    (hcut : ∀ part ∈ parts, ∀ rest, f (part ++ ' ' :: rest) = f part ++ f rest) :
    f (Text.spaced parts) = parts.flatMap f := by
  induction parts with
  | nil => exact hnil
  | cons part parts ih =>
    obtain ⟨hpart, hparts⟩ := List.forall_mem_cons.1 hcut
    cases parts with
    | nil => rw [Text.spaced, Text.joined_singleton, List.flatMap_singleton]
    | cons next parts =>
      have hspaced : Text.spaced (part :: next :: parts)
          = part ++ ' ' :: Text.spaced (next :: parts) := Text.joined_cons_cons
      rw [hspaced, hpart, ih hparts]
      exact List.flatMap_cons.symm

theorem Token.scan_spaced (hclosed : ∀ part ∈ parts, Closed part) :
    scan (Text.spaced parts) = parts.flatMap scan :=
  spaced_eq_flatMap scan_nil fun part hpart rest => scan_append_cons (hclosed part hpart) rfl rest

theorem Text.words_spaced (parts : List (List Char)) :
    words (spaced parts) = parts.flatMap words :=
  spaced_eq_flatMap rfl fun part _ rest => words_append_cons rfl part rest

/-- The words of the parts in another order. -/
theorem Text.words_spaced_perm (hperm : parts.Perm parts') :
    (words (spaced parts)).Perm (words (spaced parts')) := by
  rw [words_spaced, words_spaced]
  exact hperm.flatMap_right words

/-- **Whether a text is one word** but for its blanks is told by its words. -/
theorem Text.sameAscii_trim_iff {cs word : List Char} (hne : word ≠ [])
    (hfree : word.all (!isBlank ·)) :
    sameAscii (trim cs) word ↔ ∃ w, words cs = [w] ∧ sameAscii w word := by
  constructor
  · intro h
    have hlower : lowerAscii (trim cs) = lowerAscii word := eq_of_beq h
    have hfree' : ∀ c ∈ trim cs, isBlank c = false := by
      intro c hc
      have hmem : c.toLower ∈ lowerAscii word := hlower ▸ List.mem_map_of_mem hc
      obtain ⟨d, hd, heq⟩ := List.mem_map.1 hmem
      rw [← isBlank_toLower, ← heq, isBlank_toLower, eq_false_of_all hfree hd]
    have hne' : trim cs ≠ [] := by
      intro hnil
      rw [hnil] at hlower
      exact hne (List.map_eq_nil_iff.1 hlower.symm)
    exact ⟨trim cs, by rw [← words_trim, words_of_free hne' hfree'], h⟩
  · rintro ⟨w, hw, h⟩
    rwa [trim_eq_of_words hw]

/-- **The parts of a text** may stand in any order where it is compared with one word. -/
theorem Text.sameAscii_trim_spaced_perm {word : List Char} (hne : word ≠ [])
    (hfree : word.all (!isBlank ·)) (hperm : parts.Perm parts') :
    sameAscii (trim (spaced parts)) word = sameAscii (trim (spaced parts')) word := by
  have hwords := words_spaced_perm hperm
  rw [Bool.eq_iff_iff, sameAscii_trim_iff hne hfree, sameAscii_trim_iff hne hfree]
  refine exists_congr fun w => and_congr_left' ⟨fun h => ?_, fun h => ?_⟩
  · exact List.perm_singleton.1 (h ▸ hwords.symm)
  · exact List.perm_singleton.1 (h ▸ hwords)

/-! ## No more than one -/

/-- **A text has no more than one token of a sort**, the tokens that `f` reads. -/
def Token.AtMostOne {α : Type} (f : Token → Option α) (cs : List Char) : Prop :=
  ((scan cs).filterMap f).length ≤ 1

/-- Lists of no more than one entry have one order. -/
theorem eq_of_perm_of_length_le_one {α : Type} {l l' : List α} (hperm : l.Perm l')
    (hlength : l.length ≤ 1) : l = l' := by
  match l, hlength with
  | [], _ => exact (List.nil_perm.1 hperm).symm
  | [a], _ => exact hperm.singleton_eq

instance {α : Type} (f : Token → Option α) (cs : List Char) : Decidable (Token.AtMostOne f cs) :=
  inferInstanceAs (Decidable (_ ≤ _))

theorem Token.AtMostOne.filterMap_eq {α : Type} {f : Token → Option α}
    (hclosed : ∀ part ∈ parts, Closed part) (hperm : parts.Perm parts')
    (h : AtMostOne f (Text.spaced parts)) :
    (scan (Text.spaced parts)).filterMap f = (scan (Text.spaced parts')).filterMap f := by
  have hclosed' : ∀ part ∈ parts', Closed part := fun part hpart =>
    hclosed part (hperm.mem_iff.2 hpart)
  refine eq_of_perm_of_length_le_one (List.Perm.filterMap f ?_) h
  rw [scan_spaced hclosed, scan_spaced hclosed']
  exact hperm.flatMap_right scan

namespace Shorthand

/-- The value of a shorthand that is written in parts. -/
def ofParts (parts : List (List Char)) : Json := .string (String.ofList (Text.spaced parts))

/-! ## Borders -/

theorem toOption_mapError {ε ε' α : Type} (f : ε → ε') (r : Except ε α) :
    (r.mapError f).toOption = r.toOption := by
  cases r <;> rfl

/-- A border is told by whether it is `none` and by the parts of its tokens. -/
theorem toOption_borderOfText_congr {cs ds : List Char} (side : String)
    (hnone : Text.sameAscii cs "none".toList = Text.sameAscii ds "none".toList)
    (hparts : BorderParts.ofTokens (Token.scan cs) = BorderParts.ofTokens (Token.scan ds)) :
    (borderOfText side cs).toOption = (borderOfText side ds).toOption := by
  unfold borderOfText
  rw [hnone, hparts]
  dsimp only
  split
  · rfl
  · split <;> rfl

/-- **The patch of a border** whose parts stand in another order. -/
theorem border_perm (property side : String) (hclosed : ∀ part ∈ parts, Token.Closed part)
    (hperm : parts.Perm parts')
    (hlength : Token.AtMostOne Token.length? (Text.spaced parts))
    (hcolor : Token.AtMostOne Token.color? (Text.spaced parts))
    (hline : Token.AtMostOne lineStyle? (Text.spaced parts)) :
    (border property side (ofParts parts)).toOption
      = (border property side (ofParts parts')).toOption := by
  simp only [border, ofParts, toOption_mapError, String.toList_ofList]
  refine toOption_borderOfText_congr side
    (Text.sameAscii_trim_spaced_perm (by decide) (by decide) hperm) ?_
  rw [Token.scan_trim, Token.scan_trim, BorderParts.ofTokens, BorderParts.ofTokens,
    hlength.filterMap_eq hclosed hperm, hcolor.filterMap_eq hclosed hperm,
    hline.filterMap_eq hclosed hperm]

/-! ## Shadows -/

/-- **A part with a length**, one token of it at least. -/
def hasLength (part : List Char) : Bool := (Token.scan part).any (·.length?.isSome)

theorem lengths_eq_nil {part : List Char} (h : hasLength part = false) :
    (Token.scan part).filterMap Token.length? = [] := by
  refine List.filterMap_eq_nil_iff.2 fun t ht => ?_
  simpa using List.any_eq_false.1 h t ht

/-- The lengths of a text are those of its parts with a length. -/
theorem lengths_spaced (hclosed : ∀ part ∈ parts, Token.Closed part) :
    (Token.scan (Text.spaced parts)).filterMap Token.length?
      = (parts.filter hasLength).flatMap fun part => (Token.scan part).filterMap Token.length? := by
  rw [Token.scan_spaced hclosed, List.filterMap_flatMap]
  clear hclosed
  -- a part without a length adds nothing
  induction parts with
  | nil => rfl
  | cons part parts ih =>
    rw [List.flatMap_cons, ih]
    cases hpart : hasLength part with
    | true => rw [List.filter_cons_of_pos hpart, List.flatMap_cons]
    | false => rw [List.filter_cons_of_neg (Bool.eq_false_iff.1 hpart), lengths_eq_nil hpart]; rfl

theorem toOption_shadowOfText_congr {cs ds : List Char} (c : Config)
    (hnone : Text.sameAscii cs "none".toList = Text.sameAscii ds "none".toList)
    (hlengths : (Token.scan cs).filterMap Token.length? = (Token.scan ds).filterMap Token.length?)
    (hcolor : (Token.scan cs).findSome? Token.color? = (Token.scan ds).findSome? Token.color?) :
    (shadowOfText c cs).toOption = (shadowOfText c ds).toOption := by
  unfold shadowOfText
  rw [hnone]
  dsimp only
  rw [hlengths, hcolor]
  split
  · rfl
  · split <;> rfl

/-- **The patch of a shadow** whose parts stand in another order, those with a length in the
same. -/
theorem boxShadow_perm (c : Config) (hclosed : ∀ part ∈ parts, Token.Closed part)
    (hperm : parts.Perm parts')
    (hcolor : Token.AtMostOne Token.color? (Text.spaced parts))
    (hlengths : parts.filter hasLength = parts'.filter hasLength) :
    (boxShadow c (ofParts parts)).toOption
      = (boxShadow c (ofParts parts')).toOption := by
  have hclosed' : ∀ part ∈ parts', Token.Closed part := fun part hpart =>
    hclosed part (hperm.mem_iff.2 hpart)
  simp only [boxShadow, ofParts, toOption_mapError, String.toList_ofList]
  refine toOption_shadowOfText_congr c
    (Text.sameAscii_trim_spaced_perm (by decide) (by decide) hperm) ?_ ?_
  · rw [Token.scan_trim, Token.scan_trim, lengths_spaced hclosed, lengths_spaced hclosed', hlengths]
  · rw [Token.scan_trim, Token.scan_trim, ← List.head?_filterMap, ← List.head?_filterMap,
      hcolor.filterMap_eq hclosed hperm]

end Shorthand

/-! ## The style they leave -/

/-- **What becomes of a style**: whether it is written to, and the style that is left. -/
def StyleWriter.outcome (w : StyleWriter Unit) (s : Style) : Bool × Style :=
  match w.run s with
  | .ok _ t => (true, t)
  | .error _ t => (false, t)

theorem StyleWriter.outcome_ofPatch_congr {p q : Except StyleError StylePatch}
    (h : p.toOption = q.toOption) : (ofPatch p).outcome = (ofPatch q).outcome := by
  cases p <;> cases q <;> cases h <;> rfl

namespace Shorthand

open StyleWriter

/-- **The parts of a border and of a shadow may stand in any order.**  A border with no more than
one length, one colour and one line style, and a shadow with no more than one colour and the parts
with a length in the same order, are accepted or refused alike, and leave the same style. -/
theorem parts_in_any_order (hclosed : ∀ part ∈ parts, Token.Closed part)
    (hperm : parts.Perm parts') :
    (Token.AtMostOne Token.length? (Text.spaced parts) →
      Token.AtMostOne Token.color? (Text.spaced parts) →
      Token.AtMostOne lineStyle? (Text.spaced parts) →
      ∀ property side s,
        (expandBorder property side (ofParts parts)).outcome s
          = (expandBorder property side (ofParts parts')).outcome s)
    ∧ (Token.AtMostOne Token.color? (Text.spaced parts) →
      parts.filter hasLength = parts'.filter hasLength →
      ∀ c s, (expandBoxShadow c (ofParts parts)).outcome s
        = (expandBoxShadow c (ofParts parts')).outcome s) := by
  refine ⟨fun hlength hcolor hline property side s => ?_, fun hcolor hlengths c s => ?_⟩
  · rw [expandBorder_eq, expandBorder_eq, outcome_ofPatch_congr
      (border_perm property side hclosed hperm hlength hcolor hline)]
  · rw [expandBoxShadow_eq, expandBoxShadow_eq, outcome_ofPatch_congr
      (boxShadow_perm c hclosed hperm hcolor hlengths)]

/-- A border and a shadow, the parts of each in two orders: the same properties are written. -/
theorem parts_in_any_order_colored :
    (expandBorder "border" ""
        (ofParts ["1px".toList, "solid".toList, "rgb(0, 0, 0)".toList])).outcome Style.empty
      = (expandBorder "border" ""
        (ofParts ["rgb(0, 0, 0)".toList, "1px".toList, "solid".toList])).outcome Style.empty
    ∧ (expandBorder "border" ""
        (ofParts ["1px".toList, "solid".toList, "rgb(0, 0, 0)".toList])).outcome Style.empty
      = (true, Style.empty.apply { writes := [("borderWidth", .number FiniteDouble.one),
          ("borderColor", .text "rgb(0, 0, 0)"), ("borderStyle", .text "solid")] })
    ∧ (expandBoxShadow {}
        (ofParts ["0".toList, "2px".toList, "rgb(0, 0, 0)".toList])).outcome Style.empty
      = (expandBoxShadow {}
        (ofParts ["rgb(0, 0, 0)".toList, "0".toList, "2px".toList])).outcome Style.empty
    ∧ (expandBoxShadow {}
        (ofParts ["0".toList, "2px".toList, "rgb(0, 0, 0)".toList])).outcome Style.empty
      = (true, Style.empty.apply { writes := [
          ("shadowOffset", .offset FiniteDouble.zero (FiniteDouble.ofUInt64 2)),
          ("shadowRadius", .number FiniteDouble.zero),
          ("shadowOpacity", .number (Config.shadowOpacity {})), ("shadowColor", .text "rgb(0, 0, 0)"),
          ("elevation", .number FiniteDouble.one)] }) :=
  ⟨(parts_in_any_order (by decide +kernel) (by decide)).1 (by decide +kernel) (by decide +kernel)
      (by decide +kernel) "border" "" Style.empty, by decide +kernel,
    (parts_in_any_order (by decide +kernel) (by decide)).2 (by decide +kernel) (by decide +kernel)
      {} Style.empty, by decide +kernel⟩

end Shorthand

end ScreenLayout
