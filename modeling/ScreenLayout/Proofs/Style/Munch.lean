import ScreenLayout.Proofs.Style.TokenPattern

/-!
# Proofs/Style/Munch — the token at the front of a text

The token taken at a place is the longest text of any kind that begins there:

    12px solid   ──▸   12px, a dimension, though 12 alone is a number

There is none where no kind begins, and none where a colour function is opened and never closed,
though its name alone is a word.  These three ways exclude each other, so they tell what is taken.

* `Token.IsLongest`, `Token.Unmatched`, `Token.OpensFunction` — the three ways a text can begin.
* `Token.munch_fits` — what is taken says which way the text begins.
* `Token.Munch.Fits.unique` — and nothing else does.
* `Token.munch_eq_iff` — the two together.
-/

namespace ScreenLayout

/-! ## The ways a text can begin -/

namespace Token

open TokenKind

variable {c : Char} {cs x : List Char} {k : TokenKind}

/-- **The longest match**: a text of its kind at the front, and none of any kind is longer. -/
structure IsLongest (t : Token) (cs : List Char) : Prop where
  matched : t.text ∈ t.kind.pattern
  at_front : t.text <+: cs
  longest : ∀ k : TokenKind, ∀ x ∈ k.pattern, x <+: cs → x.length ≤ t.text.length

/-- **No kind of token begins a text.** -/
def Unmatched (cs : List Char) : Prop := ∀ k : TokenKind, ∀ x ∈ k.pattern, ¬ x <+: cs

/-- **A text opens a colour function** that it does not close. -/
def OpensFunction (cs : List Char) : Prop :=
  ∃ name ∈ colorFunctions, ∃ rest, cs = name ++ '(' :: rest ∧ ')' ∉ rest

/-- **What is taken at the front fits the text.** -/
def Munch.Fits (c : Char) (cs : List Char) : Munch → Prop
  | .token kind tail => IsLongest ⟨kind, c :: tail⟩ (c :: cs) ∧ ¬ OpensFunction (c :: cs)
  | .skip => Unmatched (c :: cs)
  | .swallow => OpensFunction (c :: cs)

/-- **Two longest matches are one.** -/
theorem IsLongest.unique {t u : Token} (ht : t.IsLongest cs) (hu : u.IsLongest cs) : t = u := by
  obtain ⟨kind, text⟩ := t
  obtain ⟨kind', text'⟩ := u
  have hpre : text <+: text' :=
    List.prefix_of_prefix_length_le ht.at_front hu.at_front
      (hu.longest kind text ht.matched ht.at_front)
  obtain rfl : text = text' :=
    hpre.eq_of_length_le (ht.longest kind' text' hu.matched hu.at_front)
  obtain rfl : kind = kind' := eq_of_mem_pattern ht.matched hu.matched
  rfl

theorem OpensFunction.not_unmatched (h : OpensFunction cs) : ¬ Unmatched cs := by
  obtain ⟨name, hname, rest, rfl, -⟩ := h
  exact fun hnone => hnone _ name (mem_pattern_ident_of_mem_colorFunctions hname)
    (List.prefix_append name _)

theorem OpensFunction.isIdentStart (h : OpensFunction (c :: cs)) : isIdentStart c := by
  obtain ⟨name, hname, rest, heq, -⟩ := h
  obtain ⟨d, tail, rfl, hd, -⟩ := exists_cons_of_mem_colorFunctions hname
  rwa [(List.cons.inj heq).1]

theorem IsLongest.not_unmatched {t : Token} (h : t.IsLongest cs) : ¬ Unmatched cs :=
  fun hnone => hnone t.kind t.text h.matched h.at_front

/-- **Nothing else fits.** -/
theorem Munch.Fits.unique {m n : Munch} (hm : m.Fits c cs) (hn : n.Fits c cs) : m = n := by
  cases m with
  | token kind tail =>
    cases n with
    | token kind' tail' => cases hm.1.unique hn.1; rfl
    | skip => exact absurd hn hm.1.not_unmatched
    | swallow => exact absurd hn hm.2
  | skip =>
    cases n with
    | token kind' tail' => exact absurd hm hn.1.not_unmatched
    | skip => rfl
    | swallow => exact absurd hm (OpensFunction.not_unmatched hn)
  | swallow =>
    cases n with
    | token kind' tail' => exact absurd hm hn.2
    | skip => exact absurd hn (OpensFunction.not_unmatched hm)
    | swallow => rfl

/-- A text of a kind at the front begins as the text does. -/
theorem startsWith_of_isPrefix (hx : x ∈ k.pattern) (h : x <+: c :: cs) :
    k.startsWith c ∧ ∃ tail, x = c :: tail ∧ tail <+: cs := by
  obtain ⟨d, tail, rfl, hd⟩ := exists_cons_of_mem_pattern hx
  obtain ⟨rfl, htail⟩ := List.cons_prefix_cons.1 h
  exact ⟨hd, tail, rfl, htail⟩

/-! ## Marks and hexadecimal colours -/

/-- A mark that is a kind of its own. -/
theorem fits_mark (hc : c ∈ marks) (hk : k.pattern = {[c]}) (cs : List Char) :
    (Munch.token k []).Fits c cs := by
  have hmatched : [c] ∈ k.pattern := hk ▸ rfl
  refine ⟨⟨hmatched, List.prefix_append [c] cs, fun l x hx hfront => ?_⟩, fun hopens => ?_⟩
  · have hl : l = k := eq_of_startsWith_of_mem_marks hc
      (startsWith_of_isPrefix hx hfront).1 (startsWith_of_mem_pattern hmatched)
    rw [hl, hk] at hx
    rw [show x = [c] from hx]
  · exact absurd hc (Text.not_mem_of_all (by decide) hopens.isIdentStart)

theorem isHex_tail_of_isPrefix (hx : x ∈ k.pattern) (h : x <+: '#' :: cs) :
    ∃ hs, x = '#' :: hs ∧ 3 ≤ hs.length ∧ hs.length ≤ 8 ∧ hs <+: cs.takeWhile isHex := by
  have hk : k = .hexColor :=
    eq_of_startsWith_of_mem_marks (by decide) (startsWith_of_isPrefix hx h).1 rfl
  obtain ⟨hs, rfl, hlow, hhigh, hhex⟩ := mem_pattern_hexColor.1 (hk ▸ hx)
  exact ⟨hs, rfl, hlow, hhigh, prefix_takeWhile hhex (List.cons_prefix_cons.1 h).2⟩

theorem munchHex_fits (cs : List Char) : (munchHex cs).Fits '#' cs := by
  unfold munchHex
  dsimp only
  split
  · rename_i hlow
    have hhex : ∀ c ∈ (cs.takeWhile isHex).take 8, isHex c := fun c hc =>
      List.mem_takeWhile_imp (List.mem_of_mem_take hc)
    have hfront : (cs.takeWhile isHex).take 8 <+: cs :=
      (List.take_prefix 8 _).trans (List.takeWhile_prefix _)
    have hlength : ((cs.takeWhile isHex).take 8).length = min 8 (cs.takeWhile isHex).length :=
      List.length_take
    refine ⟨⟨mem_pattern_hexColor.2 ⟨_, rfl, ?_, ?_, hhex⟩,
      List.cons_prefix_cons.2 ⟨rfl, hfront⟩, fun k x hx h => ?_⟩, fun hopens => ?_⟩
    · omega
    · omega
    · obtain ⟨hs, rfl, -, hhigh, hpre⟩ := isHex_tail_of_isPrefix hx h
      have hle := hpre.length_le
      simp only [List.length_cons]
      omega
    · exact absurd hopens.isIdentStart (by decide)
  · rename_i hshort
    rintro k x hx h
    obtain ⟨hs, -, hlow, -, hpre⟩ := isHex_tail_of_isPrefix hx h
    exact hshort (hlow.trans hpre.length_le)

/-! ## Words and colour functions -/

theorem isIdentChar_of_mem_colorFunctions {name : List Char} (hname : name ∈ colorFunctions) :
    ∀ c ∈ name, isIdentChar c :=
  isIdentChar_of_mem_ident (mem_pattern_ident_of_mem_colorFunctions hname)

theorem exists_tail_of_function {name rest : List Char} (hname : name ∈ colorFunctions)
    (h : c :: cs = name ++ '(' :: rest) : ∃ tail, name = c :: tail ∧ cs = tail ++ '(' :: rest := by
  obtain ⟨d, tail, rfl, -⟩ := exists_cons_of_mem_colorFunctions hname
  obtain ⟨rfl, hcs⟩ : c = d ∧ cs = tail ++ '(' :: rest := List.cons.inj h
  exact ⟨tail, rfl, hcs⟩

/-- **Where a text begins a colour function**, what follows says whether one is taken. -/
theorem munchWord_of_function {tail rest : List Char} (hname : c :: tail ∈ colorFunctions)
    (h : cs = tail ++ '(' :: rest) : munchWord c cs =
      if ')' ∈ rest then
        .token .functionColor (tail ++ '(' :: (rest.takeWhile (· != ')') ++ [')']))
      else .swallow := by
  have htail := (List.forall_mem_cons.1 (isIdentChar_of_mem_colorFunctions hname)).2
  have htake : cs.takeWhile isIdentChar = tail := h ▸ takeWhile_append_cons htail rfl rest
  have hdrop : cs.dropWhile isIdentChar = '(' :: rest := h ▸ dropWhile_append_cons htail rfl rest
  unfold munchWord
  simp only [htake, hdrop, List.contains_iff_mem.2 hname, List.contains_iff_mem, if_true]

/-- **Where it begins none**, a word is taken. -/
theorem munchWord_of_not_function
    (h : ∀ name ∈ colorFunctions, ∀ rest, c :: cs ≠ name ++ '(' :: rest) :
    munchWord c cs = .token .ident (cs.takeWhile isIdentChar) := by
  unfold munchWord
  dsimp only
  split
  · rename_i rest hrest
    refine if_neg fun hname => h _ (List.contains_iff_mem.1 hname) rest ?_
    rw [← hrest, List.cons_append, List.takeWhile_append_dropWhile]
  · rfl

/-- The name of a colour function and what follows its parenthesis are told by the text. -/
theorem function_unique {name name' rest rest' : List Char} (hname : name ∈ colorFunctions)
    (hname' : name' ∈ colorFunctions) (h : name ++ '(' :: rest = name' ++ '(' :: rest') :
    name = name' ∧ rest = rest' := by
  have htake := congrArg (List.takeWhile isIdentChar) h
  rw [takeWhile_append_cons (isIdentChar_of_mem_colorFunctions hname) rfl,
    takeWhile_append_cons (isIdentChar_of_mem_colorFunctions hname') rfl] at htake
  subst htake
  exact ⟨rfl, (List.cons.inj (List.append_cancel_left h)).2⟩

/-- What begins as a word does, is part of the word or a colour function. -/
theorem word_or_function (hc : isIdentStart c) (hx : x ∈ k.pattern) (h : x <+: c :: cs) :
    x <+: c :: cs.takeWhile isIdentChar ∨
      ∃ name ∈ colorFunctions, ∃ body rest, ')' ∉ body ∧ x = name ++ '(' :: (body ++ [')']) ∧
        c :: cs = name ++ '(' :: (body ++ ')' :: rest) := by
  obtain ⟨hstart, tail, rfl, htail⟩ := startsWith_of_isPrefix hx h
  obtain rfl | rfl := eq_of_startsWith_of_isIdentStart hc hstart
  · have hall := isIdentChar_of_mem_ident hx
    exact .inl (List.cons_prefix_cons.2
      ⟨rfl, prefix_takeWhile (List.forall_mem_cons.1 hall).2 htail⟩)
  · obtain ⟨name, hname, body, hbody, hcons⟩ := mem_pattern_functionColor.1 hx
    obtain ⟨rest, hrest⟩ := h
    refine .inr ⟨name, hname, body, rest, hbody, hcons, ?_⟩
    rw [← hrest, hcons]
    simp

/-- **A colour function that is closed** is the longest match. -/
theorem isLongest_functionColor {name body rest : List Char} (hc : isIdentStart c)
    (hname : name ∈ colorFunctions) (hbody : ')' ∉ body)
    (h : c :: cs = name ++ '(' :: (body ++ ')' :: rest)) :
    IsLongest ⟨.functionColor, name ++ '(' :: (body ++ [')'])⟩ (c :: cs) := by
  refine ⟨mem_pattern_functionColor.2 ⟨name, hname, body, hbody, rfl⟩,
    ⟨rest, by rw [h]; simp⟩, fun k x hx hfront => ?_⟩
  obtain hword | ⟨name', hname', body', rest', hbody', rfl, h'⟩ := word_or_function hc hx hfront
  · -- the word in front is the name alone
    have hname := takeWhile_append_cons (isIdentChar_of_mem_colorFunctions hname)
      (show isIdentChar '(' = false from rfl) (body ++ ')' :: rest)
    rw [← h, List.takeWhile_cons_of_pos (isIdentChar_of_isIdentStart hc)] at hname
    rw [hname] at hword
    exact hword.length_le.trans (List.prefix_append name _).length_le
  · -- both bodies end at the first parenthesis that closes
    obtain ⟨rfl, hrest⟩ := function_unique hname hname' (h.symm.trans h')
    have htake := congrArg (List.takeWhile (· != ')')) hrest
    rw [takeWhile_bne_append_cons hbody, takeWhile_bne_append_cons hbody'] at htake
    rw [htake]

theorem munchWord_fits (hc : isIdentStart c) (cs : List Char) : (munchWord c cs).Fits c cs := by
  by_cases hfunction : ∃ name ∈ colorFunctions, ∃ rest, c :: cs = name ++ '(' :: rest
  · obtain ⟨name, hname, rest, h⟩ := hfunction
    obtain ⟨tail, rfl, hcs⟩ := exists_tail_of_function hname h
    rw [munchWord_of_function hname hcs]
    split
    · rename_i hclosed
      obtain ⟨body, after, rfl, hbody⟩ := List.eq_append_cons_of_mem hclosed
      rw [takeWhile_bne_append_cons hbody]
      refine ⟨isLongest_functionColor hc hname hbody h, ?_⟩
      rintro ⟨name', hname', rest', h', hopen⟩
      exact hopen ((function_unique hname hname' (h.symm.trans h')).2 ▸ hclosed)
    · rename_i hopen
      exact ⟨c :: tail, hname, rest, h, hopen⟩
  · rw [munchWord_of_not_function fun name hname rest h => hfunction ⟨name, hname, rest, h⟩]
    refine ⟨⟨mem_pattern_ident.2 ⟨c, _, rfl, hc, fun d hd => List.mem_takeWhile_imp hd⟩,
      List.cons_prefix_cons.2 ⟨rfl, List.takeWhile_prefix _⟩, fun k x hx h => ?_⟩, ?_⟩
    · obtain hword | ⟨name, hname, body, rest, -, -, h⟩ := word_or_function hc hx h
      · exact hword.length_le
      · exact absurd ⟨name, hname, _, h⟩ hfunction
    · rintro ⟨name, hname, rest, h, -⟩
      exact hfunction ⟨name, hname, rest, h⟩

/-! ## Numbers -/

/-- The fraction a text begins with; empty if there is none. -/
theorem splitPointDigits_cases (cs : List Char) :
    (Numeral.splitPointDigits cs).1 <+: cs ∧
      ((Numeral.splitPointDigits cs).1 = [] ∨ (Numeral.splitPointDigits cs).1 ∈ fraction) := by
  unfold Numeral.splitPointDigits
  split
  · rename_i ds
    split
    · exact ⟨List.nil_prefix, .inl rfl⟩
    · rename_i hne
      refine ⟨List.cons_prefix_cons.2 ⟨rfl, List.takeWhile_prefix _⟩, .inr (mem_fraction.2 ?_)⟩
      exact ⟨_, fun h => hne (List.isEmpty_iff.2 h), fun c hc => List.mem_takeWhile_imp hc, rfl⟩
  · exact ⟨List.nil_prefix, .inl rfl⟩

theorem prefix_splitPointDigits (hx : x ∈ fraction) (h : x <+: cs) :
    x <+: (Numeral.splitPointDigits cs).1 := by
  obtain ⟨ds, hne, hds, rfl⟩ := mem_fraction.1 hx
  obtain ⟨rest, rfl⟩ := h
  have hdigits : Numeral.digits (ds ++ rest) = ds ++ Numeral.digits rest :=
    Numeral.digits_append_of_all hds rest
  have hempty : (ds ++ Numeral.digits rest).isEmpty = false :=
    List.isEmpty_eq_false_iff.2 (List.append_ne_nil_of_left_ne_nil hne _)
  simp only [List.cons_append, Numeral.splitPointDigits, hdigits, hempty]
  exact List.prefix_append ('.' :: ds) _

theorem unsignedPart_isPrefix (cs : List Char) : unsignedPart cs <+: cs := by
  obtain ⟨rest, hrest⟩ := (splitPointDigits_cases (Numeral.afterDigits cs)).1
  refine ⟨rest, ?_⟩
  rw [unsignedPart, List.append_assoc, hrest, Numeral.digits_append_afterDigits]

theorem unsignedPart_mem (h : unsignedPart cs ≠ []) : unsignedPart cs ∈ unsigned := by
  refine mem_unsigned.2 ⟨_, _, rfl, fun c hc => List.mem_takeWhile_imp hc, ?_⟩
  obtain hnil | hpart := (splitPointDigits_cases (Numeral.afterDigits cs)).2
  · refine .inl ⟨hnil, fun hdigits => h ?_⟩
    rw [unsignedPart, hnil, hdigits]
    rfl
  · exact .inr hpart

/-- **The longest number without a sign.** -/
theorem prefix_unsignedPart (hx : x ∈ unsigned) (h : x <+: cs) : x <+: unsignedPart cs := by
  obtain ⟨whole, part, rfl, hwhole, ⟨rfl, -⟩ | hpart⟩ := mem_unsigned.1 hx
  · rw [List.append_nil] at h ⊢
    exact (prefix_takeWhile hwhole h).trans (List.prefix_append _ _)
  · obtain ⟨rest, rfl⟩ := h
    have hfront := prefix_splitPointDigits hpart (List.prefix_append part rest)
    obtain ⟨ds, -, -, rfl⟩ := mem_fraction.1 hpart
    have hdigits : Numeral.digits (whole ++ '.' :: ds ++ rest) = whole := by
      rw [List.append_assoc]
      exact takeWhile_append_cons hwhole rfl _
    have hafter : Numeral.afterDigits (whole ++ '.' :: ds ++ rest) = '.' :: ds ++ rest := by
      rw [List.append_assoc]
      exact dropWhile_append_cons hwhole rfl _
    rw [unsignedPart, hdigits, hafter]
    exact (List.prefix_append_right_inj whole).2 hfront

theorem numberPart_of_ne_minus (h : ∀ body, cs ≠ '-' :: body) :
    numberPart cs = unsignedPart cs := by
  unfold numberPart
  split
  · exact absurd rfl (h _)
  · rfl

/-- After a minus there is a number, or none at all. -/
theorem numberPart_minus (body : List Char) : numberPart ('-' :: body) =
    if unsignedPart body = [] then [] else '-' :: unsignedPart body := by
  simp only [numberPart, List.isEmpty_iff]

theorem numberPart_isPrefix (cs : List Char) : numberPart cs <+: cs := by
  by_cases hminus : ∃ body, cs = '-' :: body
  · obtain ⟨body, rfl⟩ := hminus
    rw [numberPart_minus]
    split
    · exact List.nil_prefix
    · exact List.cons_prefix_cons.2 ⟨rfl, unsignedPart_isPrefix body⟩
  · rw [numberPart_of_ne_minus (not_exists.1 hminus)]
    exact unsignedPart_isPrefix cs

theorem numberPart_mem (h : numberPart cs ≠ []) : numberPart cs ∈ TokenKind.number.pattern := by
  rw [mem_pattern_number]
  by_cases hminus : ∃ body, cs = '-' :: body
  · obtain ⟨body, rfl⟩ := hminus
    rw [numberPart_minus] at h ⊢
    have hne : unsignedPart body ≠ [] := fun hnil => h (if_pos hnil)
    rw [if_neg hne]
    exact .inr ⟨_, unsignedPart_mem hne, rfl⟩
  · rw [numberPart_of_ne_minus (not_exists.1 hminus)] at h ⊢
    exact .inl (unsignedPart_mem h)

/-- **The longest number at the front.** -/
theorem prefix_numberPart (hx : x ∈ TokenKind.number.pattern) (h : x <+: cs) :
    x <+: numberPart cs := by
  obtain hx | ⟨body, hbody, rfl⟩ := mem_pattern_number.1 hx
  · obtain ⟨c, tail, rfl⟩ := List.exists_cons_of_ne_nil (ne_nil_of_mem_unsigned hx)
    have hminus : c ≠ '-' := by
      rintro rfl
      have hminus := isDigit_or_point_of_mem_unsigned hx '-' List.mem_cons_self
      exact absurd hminus (by decide)
    obtain ⟨rest, rfl⟩ := h
    have hne : ∀ body, c :: tail ++ rest ≠ '-' :: body :=
      fun body heq => hminus (List.cons.inj heq).1
    rw [numberPart_of_ne_minus hne]
    exact prefix_unsignedPart hx (List.prefix_append _ rest)
  · obtain ⟨rest, rfl⟩ := h
    have hfront := prefix_unsignedPart hbody (List.prefix_append body rest)
    have hne : unsignedPart (body ++ rest) ≠ [] := fun hnil =>
      ne_nil_of_mem_unsigned hbody (List.prefix_nil.1 (hnil ▸ hfront))
    rw [List.cons_append, numberPart_minus, if_neg hne]
    exact List.cons_prefix_cons.2 ⟨rfl, hfront⟩

/-- A number before what no number has is the longest. -/
theorem numberPart_append {n rest : List Char} {c : Char} (hn : n ∈ TokenKind.number.pattern)
    (hc : isNumeric c = false) : numberPart (n ++ c :: rest) = n := by
  have hfront : n <+: numberPart (n ++ c :: rest) := prefix_numberPart hn (List.prefix_append n _)
  have hne : numberPart (n ++ c :: rest) ≠ [] := fun hnil =>
    ne_nil_of_mem_number hn (List.prefix_nil.1 (hnil ▸ hfront))
  -- what is taken is numeric throughout, so it ends before `c`
  have hall := isNumeric_of_mem_number (numberPart_mem hne)
  have hback := prefix_takeWhile hall (numberPart_isPrefix (n ++ c :: rest))
  rw [takeWhile_append_cons (isNumeric_of_mem_number hn) hc] at hback
  exact (hfront.eq_of_length_le hback.length_le).symm

/-! ## Units -/

/-- No suffix of a unit begins with another. -/
theorem suffix_unique {u v : LengthUnit} (h : u.suffix <+: v.suffix) : u = v := by
  revert h
  cases u <;> cases v <;> decide

theorem unit_unique_of_isPrefix {y : List Char} (hx : x ∈ unit) (hy : y ∈ unit) (h : x <+: y) :
    x = y := by
  obtain ⟨u, -, hu⟩ := mem_unit.1 hx
  obtain ⟨v, -, hv⟩ := mem_unit.1 hy
  have hsuffix : u.suffix <+: v.suffix := hu ▸ hv ▸ h.map Char.toLower
  have hlower : (Text.lowerAscii x).length = (Text.lowerAscii y).length := by
    rw [hu, hv, suffix_unique hsuffix]
  rw [Text.lowerAscii, Text.lowerAscii, List.length_map, List.length_map] at hlower
  exact h.eq_of_length hlower

/-- **At most one unit begins a text.** -/
theorem unit_unique {y : List Char} (hx : x ∈ unit) (hy : y ∈ unit)
    (hxcs : x <+: cs) (hycs : y <+: cs) : x = y := by
  obtain h | h := List.prefix_or_prefix_of_prefix hxcs hycs
  · exact unit_unique_of_isPrefix hx hy h
  · exact (unit_unique_of_isPrefix hy hx h).symm

/-- A unit at the front, as it is written. -/
def unitFront? (cs : List Char) (u : LengthUnit) : Option (List Char) :=
  if Text.lowerAscii (cs.take u.suffix.length) = u.suffix then some (cs.take u.suffix.length)
  else none

theorem unitFront?_eq_some_iff {u : LengthUnit} :
    unitFront? cs u = some x ↔ x <+: cs ∧ Text.lowerAscii x = u.suffix := by
  rw [unitFront?, Option.ite_none_right_eq_some, Option.some.injEq]
  constructor
  · rintro ⟨hsuffix, rfl⟩
    exact ⟨List.take_prefix _ _, hsuffix⟩
  · rintro ⟨hfront, hsuffix⟩
    have hlength : u.suffix.length = x.length := by rw [← hsuffix, Text.lowerAscii, List.length_map]
    have htake : cs.take u.suffix.length = x := by
      rw [hlength]
      exact (List.prefix_iff_eq_take.1 hfront).symm
    rw [htake]
    exact ⟨hsuffix, rfl⟩

theorem unitPart_eq (cs : List Char) :
    unitPart cs = (LengthUnit.all.findSome? (unitFront? cs)).getD [] := rfl

theorem unit_of_findSome? (h : LengthUnit.all.findSome? (unitFront? cs) = some x) :
    x <+: cs ∧ x ∈ unit := by
  obtain ⟨u, hu, hfront⟩ := List.exists_of_findSome?_eq_some h
  obtain ⟨hpre, hsuffix⟩ := unitFront?_eq_some_iff.1 hfront
  exact ⟨hpre, mem_unit.2 ⟨u, hu, hsuffix⟩⟩

/-- What is taken for a unit is one. -/
theorem unitPart_mem (h : unitPart cs ≠ []) :
    unitPart cs <+: cs ∧ unitPart cs ∈ unit := by
  rw [unitPart_eq] at h ⊢
  cases hfind : LengthUnit.all.findSome? (unitFront? cs) with
  | none => rw [hfind] at h; exact absurd rfl h
  | some front => exact unit_of_findSome? hfind

/-- **The unit at the front is found.** -/
theorem unitPart_of_isPrefix (hx : x ∈ unit) (h : x <+: cs) : unitPart cs = x := by
  obtain ⟨u, hu, hsuffix⟩ := mem_unit.1 hx
  have hfront : unitFront? cs u = some x := unitFront?_eq_some_iff.2 ⟨h, hsuffix⟩
  rw [unitPart_eq]
  cases hfind : LengthUnit.all.findSome? (unitFront? cs) with
  | none => cases hfront.symm.trans (List.findSome?_eq_none_iff.1 hfind u hu)
  | some front =>
    obtain ⟨hpre, hmem⟩ := unit_of_findSome? hfind
    exact unit_unique hmem hx hpre h

/-! ## Numbers and dimensions -/

/-- What begins as no mark and no word does, is part of the number at the front or that number with
the unit after it. -/
theorem number_or_dimension (hmark : c ∉ marks) (hc : isIdentStart c = false)
    (hx : x ∈ k.pattern) (h : x <+: c :: cs) : numberPart (c :: cs) ≠ [] ∧
      (x <+: numberPart (c :: cs) ∨
        x = numberPart (c :: cs) ++ unitPart ((c :: cs).drop (numberPart (c :: cs)).length)) := by
  have hne : ∀ {n}, n ∈ TokenKind.number.pattern → n <+: c :: cs → numberPart (c :: cs) ≠ [] :=
    fun hn hfront hnil => ne_nil_of_mem_number hn
      (List.prefix_nil.1 (hnil ▸ prefix_numberPart hn hfront))
  obtain rfl | rfl := eq_of_startsWith_of_not hmark hc (startsWith_of_isPrefix hx h).1
  · exact ⟨hne hx h, .inl (prefix_numberPart hx h)⟩
  · obtain ⟨n, hn, u, hu, rfl⟩ := mem_pattern_dimension.1 hx
    obtain ⟨d, tail, rfl, hd⟩ := exists_cons_of_mem_unit hu
    obtain ⟨rest, hrest⟩ := h
    -- the unit begins with no character of a number, so the number before it is the longest
    have hnumber : numberPart (c :: cs) = n := by
      rw [← hrest, List.append_assoc]
      exact numberPart_append hn hd
    have hunit : unitPart ((c :: cs).drop n.length) = d :: tail := by
      rw [← hrest, List.append_assoc, List.drop_left]
      exact unitPart_of_isPrefix hu (List.prefix_append _ rest)
    rw [hnumber, hunit]
    exact ⟨ne_nil_of_mem_number hn, .inr rfl⟩

theorem munchNumber_fits (hmark : c ∉ marks) (hc : isIdentStart c = false)
    (cs : List Char) : (munchNumber (c :: cs)).Fits c cs := by
  have hclosed : ¬ OpensFunction (c :: cs) := fun hopens => by
    rw [hopens.isIdentStart] at hc
    cases hc
  have hcases := fun (k : TokenKind) (x : List Char) (hx : x ∈ k.pattern) (h : x <+: c :: cs) =>
    number_or_dimension hmark hc hx h
  unfold munchNumber
  split
  · rename_i hnil
    exact fun k x hx h => (hcases k x hx h).1 hnil
  · rename_i d number hnumber
    have hpre := numberPart_isPrefix (c :: cs)
    have hmem : d :: number ∈ TokenKind.number.pattern := by
      rw [← hnumber]
      exact numberPart_mem (hnumber ▸ List.cons_ne_nil d number)
    rw [hnumber] at hpre hcases
    obtain rfl : d = c := (List.cons_prefix_cons.1 hpre).1
    split
    · rename_i hunit
      rw [hunit, List.append_nil] at hcases
      refine ⟨⟨hmem, hpre, fun k x hx h => ?_⟩, hclosed⟩
      obtain hfront | rfl := (hcases k x hx h).2
      · exact hfront.length_le
      · exact Nat.le_refl _
    · rename_i hunit
      obtain ⟨hback, hunit⟩ := unitPart_mem hunit
      refine ⟨⟨mem_pattern_dimension.2 ⟨_, hmem, _, hunit, rfl⟩, ?_, fun k x hx h => ?_⟩,
        hclosed⟩
      · have hfront := (List.prefix_append_right_inj (d :: number)).2 hback
        rwa [List.prefix_iff_eq_append.1 hpre] at hfront
      · obtain hfront | rfl := (hcases k x hx h).2
        · exact hfront.length_le.trans (List.prefix_append (d :: number) _).length_le
        · exact Nat.le_refl _

/-! ## Any text -/

/-- **What is taken fits the text.** -/
theorem munch_fits (c : Char) (cs : List Char) : (munch c cs).Fits c cs := by
  unfold munch
  split_ifs with hhash hcomma hslash hopen hclose hword
  · subst hhash; exact munchHex_fits cs
  · subst hcomma; exact fits_mark (by decide) rfl cs
  · subst hslash; exact fits_mark (by decide) rfl cs
  · subst hopen; exact fits_mark (by decide) rfl cs
  · subst hclose; exact fits_mark (by decide) rfl cs
  · exact munchWord_fits hword cs
  · refine munchNumber_fits ?_ (Bool.eq_false_iff.2 hword) cs
    simp [marks, hhash, hcomma, hslash, hopen, hclose]

/-- **What is taken is what fits the text**, and nothing else does. -/
theorem munch_eq_iff {m : Munch} : munch c cs = m ↔ m.Fits c cs :=
  ⟨fun h => h ▸ munch_fits c cs, fun h => (munch_fits c cs).unique h⟩

/-- No text of a kind leaves a colour function open. -/
theorem not_opensFunction_of_mem_pattern (h : cs ∈ k.pattern) : ¬ OpensFunction cs := by
  rintro ⟨name, hname, rest, rfl, hopen⟩
  obtain ⟨c, tail, rfl, hc, -⟩ := exists_cons_of_mem_colorFunctions hname
  obtain rfl | rfl := eq_of_startsWith_of_isIdentStart hc
    (startsWith_of_mem_pattern h)
  · have hparen := isIdentChar_of_mem_ident h '('
      (List.mem_append_right _ List.mem_cons_self)
    exact absurd hparen (by decide)
  · obtain ⟨name', hname', body, -, heq⟩ := mem_pattern_functionColor.1 h
    obtain ⟨-, rfl⟩ := function_unique hname hname' heq
    exact hopen (List.mem_append_right body List.mem_cons_self)

/-- A text of a kind is its own longest match. -/
theorem isLongest_of_mem_pattern (h : cs ∈ k.pattern) : IsLongest ⟨k, cs⟩ cs :=
  ⟨h, List.prefix_refl cs, fun _ _ _ hx => hx.length_le⟩

end Token

end ScreenLayout
