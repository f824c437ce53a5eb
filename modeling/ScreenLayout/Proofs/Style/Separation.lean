import ScreenLayout.Proofs.Style.Scan

/-!
# Proofs/Style/Separation — tokens on both sides of a separator

A blank stands in no token but a colour function, and a colour function that is closed ends at its
first closing parenthesis.  So a blank after a closed text parts the tokens:

    1px rgb(0, 0, 0)  |  solid   ──▸   the tokens of the one, then those of the other

* `Token.prefix_of_prefix_append` — no token reaches over a blank.
* `Token.IsLongest.append` — the longest match stays the longest.
* `Token.scan_append_cons` — the tokens on both sides of a blank.
* `Token.scan_trim` — the tokens of a trimmed text.
* `Token.scan_separated` — any number of separators, and a colour function between them.
-/

namespace ScreenLayout.Token

variable {a b cs x : List Char} {c : Char} {k : TokenKind} {t : Token}

/-! ## Tokens without blanks -/

/-- A class of characters without a blank. -/
theorem not_mem_of_class {p : Char → Bool} (hall : Text.blanks.all (!p ·)) (hc : Text.isBlank c)
    (hx : ∀ d ∈ x, p d) : c ∉ x := fun hmem =>
  absurd (hx c hmem) (Bool.eq_false_iff.1 (Text.eq_false_of_isBlank hall hc))

theorem not_mem_unit_of_isBlank (hc : Text.isBlank c) (hx : x ∈ TokenKind.unit) : c ∉ x := by
  intro hmem
  obtain ⟨u, -, hsuffix⟩ := TokenKind.mem_unit.1 hx
  have hlower : c.toLower ∈ u.suffix := hsuffix ▸ List.mem_map_of_mem hmem
  have hfree : u.suffix.all (!Text.isBlank ·) := by cases u <;> decide
  rw [← Text.isBlank_toLower, Text.eq_false_of_all hfree hlower] at hc
  cases hc

/-- **A blank stands in no token** but a colour function. -/
theorem not_mem_of_isBlank (hk : k ≠ .functionColor) (hc : Text.isBlank c)
    (hx : x ∈ k.pattern) : c ∉ x := by
  cases k with
  | functionColor => exact absurd rfl hk
  | hexColor =>
    obtain ⟨hs, rfl, -, -, hhex⟩ := TokenKind.mem_pattern_hexColor.1 hx
    have hall : ∀ d ∈ '#' :: hs, d == '#' || isHex d :=
      List.forall_mem_cons.2 ⟨rfl, fun d hd => Bool.or_eq_true_iff.2 (.inr (hhex d hd))⟩
    exact not_mem_of_class (by decide) hc hall
  | dimension =>
    obtain ⟨n, hn, u, hu, rfl⟩ := TokenKind.mem_pattern_dimension.1 hx
    rw [List.mem_append, not_or]
    exact ⟨not_mem_of_class (by decide) hc (TokenKind.isNumeric_of_mem_number hn),
      not_mem_unit_of_isBlank hc hu⟩
  | number => exact not_mem_of_class (by decide) hc (TokenKind.isNumeric_of_mem_number hx)
  | ident => exact not_mem_of_class (by decide) hc (TokenKind.isIdentChar_of_mem_ident hx)
  | _ =>
    have hall : x.all TokenKind.marks.contains := by
      rw [show x = _ from hx]
      decide
    exact not_mem_of_class (by decide) hc (List.all_eq_true.1 hall)

/-! ## Matches before a blank -/

/-- The name of a colour function and its parenthesis end before a blank. -/
theorem exists_rest_of_function {name rest : List Char} (hname : name ∈ colorFunctions)
    (hc : Text.isBlank c) (h : name ++ '(' :: rest = cs ++ c :: b) :
    ∃ inner, cs = name ++ '(' :: inner ∧ rest = inner ++ c :: b := by
  have hfree : c ∉ name ++ ['('] := by
    rw [List.mem_append, not_or, List.mem_singleton]
    refine ⟨not_mem_of_class (by decide) hc (isIdentChar_of_mem_colorFunctions hname), ?_⟩
    rintro rfl
    cases hc
  have hfront : name ++ ['('] <+: cs ++ c :: b := ⟨rest, by rw [← h]; simp⟩
  obtain ⟨inner, rfl⟩ := prefix_of_not_mem hfree hfront
  exact ⟨inner, by simp, by simpa using h⟩

theorem OpensFunction.of_append (h : OpensFunction (cs ++ c :: b)) (hc : Text.isBlank c) :
    OpensFunction cs := by
  obtain ⟨name, hname, rest, heq, hopen⟩ := h
  obtain ⟨inner, rfl, rfl⟩ := exists_rest_of_function hname hc heq.symm
  exact ⟨name, hname, inner, rfl, fun hmem => hopen (List.mem_append_left _ hmem)⟩

/-- It stays open where nothing after it closes it. -/
theorem OpensFunction.append (h : OpensFunction cs) (hb : ')' ∉ b) : OpensFunction (cs ++ b) := by
  obtain ⟨name, hname, rest, rfl, hopen⟩ := h
  refine ⟨name, hname, rest ++ b, by simp, ?_⟩
  rw [List.mem_append, not_or]
  exact ⟨hopen, hb⟩

/-- **No token reaches over a blank**, where no colour function is left open. -/
theorem prefix_of_prefix_append (hclosed : ¬ OpensFunction cs) (hc : Text.isBlank c)
    (hx : x ∈ k.pattern) (h : x <+: cs ++ c :: b) : x <+: cs := by
  by_cases hk : k = .functionColor
  · subst hk
    obtain ⟨name, hname, body, hbody, rfl⟩ := TokenKind.mem_pattern_functionColor.1 hx
    obtain ⟨back, hback⟩ := h
    rw [List.append_assoc, List.cons_append, List.append_assoc, List.singleton_append] at hback
    obtain ⟨inner, rfl, hinner⟩ := exists_rest_of_function hname hc hback
    -- the function is closed before the blank, and ends where it is closed first
    have hmem : ')' ∈ inner := by_contra fun hopen => hclosed ⟨name, hname, inner, rfl, hopen⟩
    obtain ⟨body', after, rfl, hbody'⟩ := List.eq_append_cons_of_mem hmem
    have htake := congrArg (List.takeWhile (· != ')')) hinner
    rw [List.append_assoc, List.cons_append, takeWhile_bne_append_cons hbody,
      takeWhile_bne_append_cons hbody'] at htake
    subst htake
    exact ⟨after, by simp⟩
  · exact prefix_of_not_mem (not_mem_of_isBlank hk hc hx) h

/-- **The longest match before a blank** stays the longest. -/
theorem IsLongest.append (h : t.IsLongest cs) (hclosed : ¬ OpensFunction cs) (hc : Text.isBlank c)
    (b : List Char) : t.IsLongest (cs ++ c :: b) :=
  ⟨h.matched, List.prefix_append_of_prefix h.at_front, fun k x hx hfront =>
    h.longest k x hx (prefix_of_prefix_append hclosed hc hx hfront)⟩

theorem Unmatched.append (h : Unmatched cs) (hc : Text.isBlank c) (b : List Char) :
    Unmatched (cs ++ c :: b) := fun k x hx hfront =>
  h k x hx (prefix_of_prefix_append (fun hopens => hopens.not_unmatched h) hc hx hfront)

/-! ## Tokens on both sides -/

/-- **A reading goes on after a blank**, unless the rest is left out, and then what comes after the
blank must hold no token and close nothing. -/
theorem Reads.scan_append {p : Nat} {r : Reading} (h : Reads a p r) (hc : Text.isBlank c)
    (hb : r.swallowed = none ∨ ')' ∉ b ∧ scan b = []) :
    scan (a.drop p ++ c :: b) = r.spans.map Span.token ++ scan b := by
  induction h with
  | done hp =>
    rw [List.drop_eq_nil_of_le hp, List.nil_append, scan_of_unmatched (unmatched_of_isBlank hc b)]
    rfl
  | token hlongest hopen _ ih =>
    rw [scan_of_isLongest (hlongest.append hopen hc b) fun hopens => hopen (hopens.of_append hc),
      List.drop_append_of_le_length hlongest.at_front.length_le, List.drop_drop, ih hb]
    rfl
  | skip hp hnone _ ih =>
    have hnone' := hnone.append hc b
    rw [List.drop_eq_getElem_cons hp, List.cons_append] at hnone' ⊢
    rw [scan_of_unmatched hnone', ih hb]
  | swallow hopens =>
    -- nothing after the blank closes the function, so it is all left out
    obtain hclosed | ⟨hfree, hnil⟩ := hb
    · cases hclosed
    · have hstill : ')' ∉ c :: b := by
        refine fun hmem => hfree ((List.mem_cons.1 hmem).resolve_left ?_)
        rintro rfl
        cases hc
      rw [scan_of_opensFunction (hopens.append hstill), hnil]
      rfl

/-- **A blank parts the tokens** of a closed text from those after it. -/
theorem scan_append_cons (ha : Closed a) (hc : Text.isBlank c) (b : List Char) :
    scan (a ++ c :: b) = scan a ++ scan b := by
  have hread := reads_read a
  have hscan := hread.scan_append hc (.inl ha) (b := b)
  rwa [hread.map_token, List.drop_zero] at hscan

/-! ## Blanks around a text -/

theorem scan_append_of_blank {w : List Char} (hw : ∀ c ∈ w, Text.isBlank c) (b : List Char) :
    scan (w ++ b) = scan b := by
  induction w with
  | nil => rfl
  | cons c w ih =>
    obtain ⟨hc, hw⟩ := List.forall_mem_cons.1 hw
    rw [List.cons_append, scan_of_unmatched (unmatched_of_isBlank hc _), ih hw]

theorem scan_of_blank {w : List Char} (hw : ∀ c ∈ w, Text.isBlank c) : scan w = [] := by
  rw [← List.append_nil w, scan_append_of_blank hw, scan_nil]

theorem scan_append_blank {w : List Char} (hw : ∀ c ∈ w, Text.isBlank c) (a : List Char) :
    scan (a ++ w) = scan a := by
  cases w with
  | nil => rw [List.append_nil]
  | cons c w =>
    obtain ⟨hc, hw⟩ := List.forall_mem_cons.1 hw
    have hread := reads_read a
    have hfree : ')' ∉ w := fun hmem => absurd (hw ')' hmem) (by decide)
    have hscan := hread.scan_append hc (.inr ⟨hfree, scan_of_blank hw⟩)
    rwa [hread.map_token, List.drop_zero, scan_of_blank hw, List.append_nil] at hscan

/-- **Blanks at the ends of a text leave no trace.** -/
theorem scan_trim (cs : List Char) : scan (Text.trim cs) = scan cs := by
  obtain ⟨front, back, hcs, hfront, hback⟩ := Text.exists_eq_append_trim cs
  have hscan : scan (front ++ (Text.trim cs ++ back)) = scan (Text.trim cs) := by
    rw [scan_append_of_blank hfront, scan_append_blank hback]
  rw [← hscan, ← hcs]

theorem scan_append_separators {w : List Char} (ha : Closed a) (hne : w ≠ [])
    (hw : ∀ c ∈ w, isSeparator c) (b : List Char) : scan (a ++ (w ++ b)) = scan a ++ scan b := by
  obtain ⟨c, w, rfl⟩ := List.exists_cons_of_ne_nil hne
  obtain ⟨hc, hw⟩ := List.forall_mem_cons.1 hw
  rw [List.cons_append, scan_append_cons ha (isBlank_of_isSeparator hc),
    scan_append_of_blank fun d hd => isBlank_of_isSeparator (hw d hd)]

/-- A text of a kind is closed. -/
theorem closed_of_mem_pattern (h : x ∈ k.pattern) : Closed x := by
  by_contra hne
  obtain ⟨q, hq⟩ := Option.ne_none_iff_exists'.1 hne
  have hread := reads_read x
  obtain ⟨-, hopens, hstop⟩ := hread.swallowed hq
  have htoken : ⟨k, x⟩ ∈ (read x).spans.map Span.token := by
    rw [hread.map_token, List.drop_zero, scan_of_mem_pattern h]
    exact List.mem_cons_self
  obtain ⟨s, hs, htext⟩ := List.mem_map.1 htoken
  have hlength : s.stop = s.start + x.length := by rw [Span.stop, htext]
  have hend : x.length ≤ q :=
    (Nat.le_add_left _ s.start).trans (hlength ▸ hstop s hs)
  exact ne_nil_of_opensFunction hopens (List.drop_eq_nil_of_le hend)

/-- **Separators part the tokens** of a closed text from those after it; and a colour function
between separators is one token, whatever stands on either side.

Being closed is no more than it says: wherever a token may begin, at the start of a token or between
two, no colour function is opened that nothing after it in the text closes. -/
theorem scan_separated {a w : List Char} (ha : Closed a) (hne : w ≠ [])
    (hw : ∀ c ∈ w, isSeparator c) (b : List Char) :
    scan (a ++ w ++ b) = scan a ++ scan b
      ∧ (∀ f ∈ TokenKind.functionColor.pattern, ∀ w', w' ≠ [] → (∀ c ∈ w', isSeparator c) →
          scan (a ++ w ++ f ++ w' ++ b) = scan a ++ ⟨.functionColor, f⟩ :: scan b)
      ∧ ∀ text, Closed text ↔ ∀ q, (∀ s ∈ (read text).spans, s.Covers q → s.start = q) →
          ¬ OpensFunction (text.drop q) := by
  refine ⟨?_, fun f hf w' hne' hw' => ?_, fun _ => closed_iff⟩
  · rw [List.append_assoc, scan_append_separators ha hne hw]
  · rw [List.append_assoc, List.append_assoc, List.append_assoc, scan_append_separators ha hne hw,
      scan_append_separators (closed_of_mem_pattern hf) hne' hw', scan_of_mem_pattern hf]
    rfl

/-- A shadow on two lines, and with its colour on a line of its own. -/
theorem scan_separated_shadow :
    scan ("0 2px rgba(0, 0, 0, .5)".toList ++ [' ', '\n'] ++ "inset".toList)
        = scan "0 2px rgba(0, 0, 0, .5)".toList ++ scan "inset".toList
      ∧ scan ("0 2px".toList ++ ['\n'] ++ "rgb(0, 0, 0)".toList ++ [' '] ++ "inset".toList)
        = scan "0 2px".toList ++ ⟨.functionColor, "rgb(0, 0, 0)".toList⟩ :: scan "inset".toList :=
  ⟨(scan_separated (by decide +kernel) (List.cons_ne_nil _ _) (List.all_eq_true.1 (by decide))
      "inset".toList).1,
    (scan_separated (by decide +kernel) (List.cons_ne_nil _ _) (List.all_eq_true.1 (by decide))
      "inset".toList).2.1 _
      (TokenKind.mem_pattern_functionColor.2
        ⟨"rgb".toList, by decide, "0, 0, 0".toList, by decide, rfl⟩)
      _ (List.cons_ne_nil _ _) (List.all_eq_true.1 (by decide))⟩

end ScreenLayout.Token
