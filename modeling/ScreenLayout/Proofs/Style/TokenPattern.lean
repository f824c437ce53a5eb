import Mathlib.Computability.Language
import ScreenLayout.Proofs.Number.ReadBack

/-!
# Proofs/Style/TokenPattern — the texts of each kind of token

Each kind of token is a regular language, written here as its regular expression:

    -?([0-9]+(\.[0-9]+)?|\.[0-9]+)   ──▸   a number

Two kinds may begin alike, a number and a dimension, a word and a colour function, but no text is of
two kinds: the one that may go on ends with a character the other has none of.

* `Pattern.one`, `Pattern.text`, `Pattern.repeated` — the pieces of an expression.
* `TokenKind.pattern` — the expression of a kind; `TokenKind.mem_pattern_ident` and its siblings say
  what it matches.
* `TokenKind.exists_cons_of_mem_pattern` — the characters a kind begins with.
* `TokenKind.eq_of_mem_pattern` — a text is of one kind at most.
-/

namespace ScreenLayout

open Computability

/-! ## Pieces of expressions -/

namespace Pattern

variable {p : Char → Bool} {cs : List Char} {l : Language Char}

/-- One character of a class. -/
def one (p : Char → Bool) : Language Char := {cs | ∃ c, p c ∧ cs = [c]}

/-- A text as it stands. -/
def text (s : String) : Language Char := {s.toList}

/-- A text with its ASCII letters in either case.  The text is given in lower case; a letter outside
ASCII stands for itself alone. -/
def anyCase (s : String) : Language Char := {cs | Text.lowerAscii cs = s.toList}

/-- What may be there or not. -/
def optional (l : Language Char) : Language Char := 1 + l

/-- One character of a class or more. -/
def many (p : Char → Bool) : Language Char := one p * (one p)∗

/-- From `lo` to `hi` characters of a class, where an expression would write `{lo,hi}`. -/
def repeated (lo hi : Nat) (p : Char → Bool) : Language Char :=
  {cs | lo ≤ cs.length ∧ cs.length ≤ hi ∧ ∀ c ∈ cs, p c}

@[simp] theorem mem_text {s : String} : cs ∈ text s ↔ cs = s.toList := Iff.rfl

@[simp] theorem mem_anyCase {s : String} : cs ∈ anyCase s ↔ Text.lowerAscii cs = s.toList := Iff.rfl

@[simp] theorem mem_optional : cs ∈ optional l ↔ cs = [] ∨ cs ∈ l := Iff.rfl

@[simp] theorem mem_repeated {lo hi : Nat} :
    cs ∈ repeated lo hi p ↔ lo ≤ cs.length ∧ cs.length ≤ hi ∧ ∀ c ∈ cs, p c := Iff.rfl

/-- A text matches a class followed by an expression iff its first character is of the class and the
rest matches. -/
theorem mem_one_mul : cs ∈ one p * l ↔ ∃ c tail, cs = c :: tail ∧ p c ∧ tail ∈ l := by
  rw [Language.mem_mul]
  constructor
  · rintro ⟨_, ⟨c, hc, rfl⟩, tail, htail, rfl⟩
    exact ⟨c, tail, rfl, hc, htail⟩
  · rintro ⟨c, tail, rfl, hc, htail⟩
    exact ⟨[c], ⟨c, hc, rfl⟩, tail, htail, rfl⟩

/-- A text matches another followed by an expression iff it begins with that one and the rest
matches. -/
theorem mem_text_mul {s : String} : cs ∈ text s * l ↔ ∃ tail ∈ l, cs = s.toList ++ tail := by
  rw [Language.mem_mul]
  constructor
  · rintro ⟨_, rfl, tail, htail, rfl⟩
    exact ⟨tail, htail, rfl⟩
  · rintro ⟨tail, htail, rfl⟩
    exact ⟨s.toList, rfl, tail, htail, rfl⟩

/-- **Any number of characters of a class**, which is a star over languages, is a condition on each
character alone. -/
@[simp] theorem mem_star_one : cs ∈ (one p)∗ ↔ ∀ c ∈ cs, p c := by
  rw [Language.mem_kstar]
  constructor
  · rintro ⟨pieces, rfl, hpieces⟩ c hc
    obtain ⟨piece, hpiece, hmem⟩ := List.mem_flatten.1 hc
    obtain ⟨d, hd, rfl⟩ := hpieces piece hpiece
    rwa [List.mem_singleton.1 hmem]
  · intro hall
    refine ⟨cs.map ([·]), (List.flatMap_singleton' cs).symm, fun piece hpiece => ?_⟩
    obtain ⟨c, hc, rfl⟩ := List.mem_map.1 hpiece
    exact ⟨c, hall c hc, rfl⟩

@[simp] theorem mem_many : cs ∈ many p ↔ cs ≠ [] ∧ ∀ c ∈ cs, p c := by
  rw [many, mem_one_mul]
  constructor
  · rintro ⟨c, tail, rfl, hc, htail⟩
    exact ⟨List.cons_ne_nil c tail, List.forall_mem_cons.2 ⟨hc, mem_star_one.1 htail⟩⟩
  · rintro ⟨hne, hall⟩
    obtain ⟨c, tail, rfl⟩ := List.exists_cons_of_ne_nil hne
    obtain ⟨hc, htail⟩ := List.forall_mem_cons.1 hall
    exact ⟨c, tail, rfl, hc, mem_star_one.2 htail⟩

end Pattern

/-! ## The expressions -/

namespace TokenKind

open Pattern

/-- A point and digits after it; a point alone is no part of a number. -/
def fraction : Language Char := text "." * many Char.isDigit

/-- Digits and a fraction, or the one or the other. -/
def unsigned : Language Char := many Char.isDigit * optional fraction + fraction

/-- The names of the colour functions. -/
def functionName : Language Char :=
  text "rgb" * optional (text "a") + text "hsl" * optional (text "a")

/-- The units, in any case. -/
def unit : Language Char :=
  anyCase "px" + anyCase "pt" + anyCase "dp" + anyCase "rem" + anyCase "em" + text "%"
    + anyCase "deg" + anyCase "vw" + anyCase "vh"

/-- **The expression of a kind of token.** -/
def pattern : TokenKind → Language Char
  | hexColor => text "#" * repeated 3 8 Token.isHex
  | functionColor => functionName * (text "(" * ((one (· != ')'))∗ * text ")"))
  | dimension => optional (text "-") * unsigned * unit
  | number => optional (text "-") * unsigned
  | ident => one Token.isIdentStart * (one Token.isIdentChar)∗
  | comma => text ","
  | slash => text "/"
  | parenOpen => text "("
  | parenClose => text ")"

variable {cs : List Char} {k l : TokenKind}

/-- A fraction is a point and one digit or more. -/
theorem mem_fraction : cs ∈ fraction ↔ ∃ ds, ds ≠ [] ∧ (∀ c ∈ ds, c.isDigit) ∧ cs = '.' :: ds := by
  simp [fraction, mem_text_mul, and_assoc]

/-- **A number without a sign** is digits and then a fraction, one of the two perhaps missing.  Both
alternatives of the expression are of this form, so no case of it is left to later proofs. -/
theorem mem_unsigned : cs ∈ unsigned ↔
    ∃ whole part, cs = whole ++ part ∧ (∀ c ∈ whole, c.isDigit) ∧
      (part = [] ∧ whole ≠ [] ∨ part ∈ fraction) := by
  rw [unsigned, Language.mem_add, Language.mem_mul]
  simp only [mem_many, mem_optional]
  constructor
  · rintro (⟨whole, ⟨hne, hwhole⟩, part, hpart, rfl⟩ | hpart)
    · exact ⟨whole, part, rfl, hwhole, hpart.imp_left (⟨·, hne⟩)⟩
    · exact ⟨[], cs, rfl, nofun, .inr hpart⟩
  · rintro ⟨whole, part, rfl, hwhole, ⟨rfl, hne⟩ | hpart⟩
    · exact .inl ⟨whole, ⟨hne, hwhole⟩, [], .inl rfl, rfl⟩
    -- a fraction alone is the second alternative
    · by_cases hne : whole = []
      · exact .inr (hne ▸ hpart)
      · exact .inl ⟨whole, ⟨hne, hwhole⟩, part, .inr hpart, rfl⟩

/-- The names the expression matches are those the tokens are told by. -/
theorem mem_functionName : cs ∈ functionName ↔ cs ∈ Token.colorFunctions := by
  rw [functionName, Language.mem_add]
  simp [mem_text_mul, Token.colorFunctions, or_assoc]

/-- A percent sign has no case, so it may be matched as letters are. -/
theorem lowerAscii_eq_percent : Text.lowerAscii cs = ['%'] ↔ cs = ['%'] := by
  rw [Text.lowerAscii, List.map_eq_singleton_iff]
  constructor
  · rintro ⟨c, rfl, hc⟩
    rw [(Text.toLower_eq_iff (by decide)).1 hc]
  · rintro rfl
    exact ⟨'%', rfl, rfl⟩

/-- **The units the expression matches** are the suffixes of lengths, in any case. -/
theorem mem_unit : cs ∈ unit ↔ ∃ u ∈ LengthUnit.all, Text.lowerAscii cs = u.suffix := by
  simp only [unit, Language.mem_add, mem_anyCase, mem_text, LengthUnit.all,
    List.exists_mem_cons_iff, List.not_mem_nil, false_and, exists_false, or_false,
    LengthUnit.suffix, lowerAscii_eq_percent, String.reduceToList]
  tauto

/-! ## What each expression matches

Each expression is opened once, into characters; what follows is said of those. -/

/-- A colour in hexadecimal digits is a `#` and three to eight of them. -/
theorem mem_pattern_hexColor : cs ∈ hexColor.pattern ↔
    ∃ hs, cs = '#' :: hs ∧ 3 ≤ hs.length ∧ hs.length ≤ 8 ∧ ∀ c ∈ hs, Token.isHex c := by
  simp [pattern, mem_text_mul, and_comm]

/-- **A colour function** is its name, a parenthesis, and everything up to the first one that
closes; there is no nesting, and blanks may stand within. -/
theorem mem_pattern_functionColor : cs ∈ functionColor.pattern ↔
    ∃ name ∈ Token.colorFunctions, ∃ body, ')' ∉ body ∧ cs = name ++ '(' :: (body ++ [')']) := by
  simp only [pattern, Language.mem_mul, mem_functionName, mem_text, mem_star_one]
  constructor
  · rintro ⟨name, hname, _, ⟨_, rfl, _, ⟨body, hbody, _, rfl, rfl⟩, rfl⟩, rfl⟩
    exact ⟨name, hname, body, fun hmem => by simpa using hbody _ hmem, rfl⟩
  · rintro ⟨name, hname, body, hbody, rfl⟩
    refine ⟨name, hname, _, ⟨_, rfl, _, ⟨body, fun c hc => ?_, _, rfl, rfl⟩, rfl⟩, rfl⟩
    exact bne_iff_ne.2 fun heq => hbody (heq ▸ hc)

/-- **A word** begins with a letter or a bar, and goes on with those, digits and dashes. -/
theorem mem_pattern_ident : cs ∈ ident.pattern ↔
    ∃ c tail, cs = c :: tail ∧ Token.isIdentStart c ∧ ∀ d ∈ tail, Token.isIdentChar d := by
  simp only [pattern, mem_one_mul, mem_star_one]

/-- **A number** is one without a sign, or that after a minus sign. -/
theorem mem_pattern_number :
    cs ∈ number.pattern ↔ cs ∈ unsigned ∨ ∃ body ∈ unsigned, cs = '-' :: body := by
  rw [pattern, Language.mem_mul]
  simp [or_and_right, exists_or, eq_comm]

/-- **A dimension** is a number and a unit, with nothing between them. -/
theorem mem_pattern_dimension : cs ∈ dimension.pattern ↔
    ∃ n ∈ number.pattern, ∃ u ∈ unit, cs = n ++ u := by
  simp only [pattern, Language.mem_mul, eq_comm]

/-! ## What each kind begins with

One character is enough to tell all kinds apart but two pairs: a word and a colour function, a number
and a dimension. -/

/-- The characters of a number. -/
def isNumeric (c : Char) : Bool := c.isDigit || c == '-' || c == '.'

/-- The characters a kind begins with. -/
def startsWith : TokenKind → Char → Bool
  | hexColor => (· == '#')
  | functionColor | ident => Token.isIdentStart
  | dimension | number => isNumeric
  | comma => (· == ',')
  | slash => (· == '/')
  | parenOpen => (· == '(')
  | parenClose => (· == ')')

/-- A digit is a character of numbers. -/
theorem isNumeric_of_isDigit {c : Char} (hc : c.isDigit) : isNumeric c := by
  simp [isNumeric, hc]

/-- What a word begins with may also stand within it. -/
theorem isIdentChar_of_isIdentStart {c : Char} (hc : Token.isIdentStart c) :
    Token.isIdentChar c := by
  obtain hletter | hbar := Bool.or_eq_true_iff.1 hc
  · simp [Token.isIdentChar, hletter]
  · simp [Token.isIdentChar, hbar]

/-- **What a word begins with is in no number**, so words and numbers are told apart by one
character. -/
theorem isNumeric_of_isIdentStart {c : Char} (hc : Token.isIdentStart c) :
    isNumeric c = false := by
  have hmark : c ∉ ['-', '.'] := Text.not_mem_of_all (by decide) hc
  simpa [isNumeric, Token.isDigit_of_isIdentStart hc] using hmark

theorem isDigit_or_point_of_mem_fraction (h : cs ∈ fraction) : ∀ c ∈ cs, c.isDigit ∨ c = '.' := by
  obtain ⟨ds, -, hds, rfl⟩ := mem_fraction.1 h
  exact List.forall_mem_cons.2 ⟨.inr rfl, fun c hc => .inl (hds c hc)⟩

/-- A number without a sign has digits and points only, so a minus sign can only come first. -/
theorem isDigit_or_point_of_mem_unsigned (h : cs ∈ unsigned) : ∀ c ∈ cs, c.isDigit ∨ c = '.' := by
  obtain ⟨whole, part, rfl, hwhole, hpart⟩ := mem_unsigned.1 h
  refine List.forall_mem_append.2 ⟨fun c hc => .inl (hwhole c hc), ?_⟩
  obtain ⟨rfl, -⟩ | hpart := hpart
  · exact nofun
  · exact isDigit_or_point_of_mem_fraction hpart

theorem isNumeric_of_mem_unsigned (h : cs ∈ unsigned) : ∀ c ∈ cs, isNumeric c := fun c hc => by
  obtain hdigit | rfl := isDigit_or_point_of_mem_unsigned h c hc
  · exact isNumeric_of_isDigit hdigit
  · rfl

/-- **A number is made of the characters of numbers**; a unit, which begins with none, ends it. -/
theorem isNumeric_of_mem_number (h : cs ∈ number.pattern) : ∀ c ∈ cs, isNumeric c := by
  obtain h | ⟨body, hbody, rfl⟩ := mem_pattern_number.1 h
  · exact isNumeric_of_mem_unsigned h
  · exact List.forall_mem_cons.2 ⟨rfl, isNumeric_of_mem_unsigned hbody⟩

/-- A word is made of the characters of words, so a parenthesis ends it. -/
theorem isIdentChar_of_mem_ident (h : cs ∈ ident.pattern) : ∀ c ∈ cs, Token.isIdentChar c := by
  obtain ⟨c, tail, rfl, hc, htail⟩ := mem_pattern_ident.1 h
  exact List.forall_mem_cons.2 ⟨isIdentChar_of_isIdentStart hc, htail⟩

/-- A number has a digit, whichever of its two parts is missing. -/
theorem ne_nil_of_mem_unsigned (h : cs ∈ unsigned) : cs ≠ [] := by
  obtain ⟨whole, part, rfl, -, ⟨-, hne⟩ | hpart⟩ := mem_unsigned.1 h
  · exact List.append_ne_nil_of_left_ne_nil hne part
  · obtain ⟨ds, -, -, rfl⟩ := mem_fraction.1 hpart
    exact List.append_ne_nil_of_right_ne_nil whole (List.cons_ne_nil '.' ds)

theorem ne_nil_of_mem_number (h : cs ∈ number.pattern) : cs ≠ [] := by
  obtain h | ⟨body, -, rfl⟩ := mem_pattern_number.1 h
  · exact ne_nil_of_mem_unsigned h
  · exact List.cons_ne_nil '-' body

/-- **A unit begins with no character of a number**, in either case; so where a number is followed
by a unit, the number is as long as it can be. -/
theorem exists_cons_of_mem_unit (h : cs ∈ unit) :
    ∃ c tail, cs = c :: tail ∧ isNumeric c = false := by
  obtain ⟨u, -, hsuffix⟩ := mem_unit.1 h
  obtain ⟨d, ds, hu, hd⟩ : ∃ d ds, u.suffix = d :: ds ∧ isNumeric d = false := by
    cases u <;> exact ⟨_, _, rfl, rfl⟩
  obtain ⟨c, tail, rfl, hc, -⟩ := List.map_eq_cons_iff.1 (hsuffix.trans hu)
  refine ⟨c, tail, rfl, ?_⟩
  cases halpha : c.isAlpha with
  | true => exact isNumeric_of_isIdentStart (Bool.or_eq_true_iff.2 (.inl halpha))
  | false => rwa [← hc, Text.toLower_of_not_isAlpha halpha] at hd

/-- The name of a colour function is a word, and is read as one where no parenthesis follows. -/
theorem mem_pattern_ident_of_mem_colorFunctions (h : cs ∈ Token.colorFunctions) :
    cs ∈ ident.pattern := by
  have hwords : ∀ name ∈ Token.colorFunctions,
      name.head?.any Token.isIdentStart ∧ name.all Token.isIdentChar := by decide
  obtain ⟨hhead, hall⟩ := hwords cs h
  cases cs with
  | nil => cases hhead
  | cons c tail =>
    exact mem_pattern_ident.2 ⟨c, tail, rfl, hhead, fun d hd =>
      List.all_eq_true.1 hall d (List.mem_cons_of_mem c hd)⟩

/-- The name of a colour function taken apart as a word. -/
theorem exists_cons_of_mem_colorFunctions (h : cs ∈ Token.colorFunctions) :
    ∃ c tail, cs = c :: tail ∧ Token.isIdentStart c ∧ ∀ d ∈ tail, Token.isIdentChar d :=
  mem_pattern_ident.1 (mem_pattern_ident_of_mem_colorFunctions h)

/-- **A text of a kind begins with a character of the kind**; in particular no kind has the empty
text. -/
theorem exists_cons_of_mem_pattern (h : cs ∈ k.pattern) :
    ∃ c tail, cs = c :: tail ∧ k.startsWith c := by
  cases k with
  | hexColor =>
    obtain ⟨hs, rfl, -⟩ := mem_pattern_hexColor.1 h
    exact ⟨'#', hs, rfl, rfl⟩
  | functionColor =>
    obtain ⟨name, hname, body, -, rfl⟩ := mem_pattern_functionColor.1 h
    obtain ⟨c, tail, rfl, hc, -⟩ := exists_cons_of_mem_colorFunctions hname
    exact ⟨c, _, rfl, hc⟩
  | dimension =>
    obtain ⟨n, hn, u, -, rfl⟩ := mem_pattern_dimension.1 h
    obtain ⟨c, tail, rfl⟩ := List.exists_cons_of_ne_nil (ne_nil_of_mem_number hn)
    exact ⟨c, tail ++ u, rfl, isNumeric_of_mem_number hn c List.mem_cons_self⟩
  | number =>
    obtain ⟨c, tail, rfl⟩ := List.exists_cons_of_ne_nil (ne_nil_of_mem_number h)
    exact ⟨c, tail, rfl, isNumeric_of_mem_number h c List.mem_cons_self⟩
  | ident =>
    obtain ⟨c, tail, rfl, hc, -⟩ := mem_pattern_ident.1 h
    exact ⟨c, tail, rfl, hc⟩
  | _ => exact ⟨_, [], h, rfl⟩

/-- The first character tells which kinds a text may be of. -/
theorem startsWith_of_mem_pattern {c : Char} (h : c :: cs ∈ k.pattern) : k.startsWith c := by
  obtain ⟨d, tail, heq, hd⟩ := exists_cons_of_mem_pattern h
  rwa [(List.cons.inj heq).1]

theorem ne_nil_of_mem_pattern (h : cs ∈ k.pattern) : cs ≠ [] := by
  obtain ⟨c, tail, rfl, -⟩ := exists_cons_of_mem_pattern h
  exact List.cons_ne_nil c tail

/-! ## Kinds that begin alike -/

/-- The characters that only one kind begins with. -/
def marks : List Char := ['#', ',', '/', '(', ')']

/-- **A mark belongs to one kind only**: two kinds that begin with it are the same. -/
theorem eq_of_startsWith_of_mem_marks {c : Char} (hc : c ∈ marks) (hk : k.startsWith c)
    (hl : l.startsWith c) : k = l := by
  obtain ⟨only, honly⟩ : ∃ only : TokenKind, ∀ k : TokenKind, k.startsWith c → k = only := by
    simp only [marks, List.mem_cons, List.not_mem_nil, or_false] at hc
    obtain rfl | rfl | rfl | rfl | rfl := hc
    · exact ⟨hexColor, fun k hk => by cases k <;> first | rfl | cases hk⟩
    · exact ⟨comma, fun k hk => by cases k <;> first | rfl | cases hk⟩
    · exact ⟨slash, fun k hk => by cases k <;> first | rfl | cases hk⟩
    · exact ⟨parenOpen, fun k hk => by cases k <;> first | rfl | cases hk⟩
    · exact ⟨parenClose, fun k hk => by cases k <;> first | rfl | cases hk⟩
  exact (honly k hk).trans (honly l hl).symm

/-- Only words and colour functions begin with a letter or a bar. -/
theorem eq_of_startsWith_of_isIdentStart {c : Char} (hc : Token.isIdentStart c)
    (hk : k.startsWith c) : k = ident ∨ k = functionColor := by
  have hmark : c ∉ marks := Text.not_mem_of_all (by decide) hc
  have hnumeric := isNumeric_of_isIdentStart hc
  cases k <;> simp_all [startsWith, marks]

/-- Nothing but a number or a dimension begins with another character. -/
theorem eq_of_startsWith_of_not {c : Char} (hmark : c ∉ marks) (hc : Token.isIdentStart c = false)
    (hk : k.startsWith c) : k = number ∨ k = dimension := by
  cases k <;> simp_all [startsWith, marks]

/-- No word is a colour function, which has parentheses. -/
theorem not_mem_ident_of_mem_functionColor (h : cs ∈ functionColor.pattern) :
    cs ∉ ident.pattern := by
  rintro hword
  obtain ⟨name, -, body, -, rfl⟩ := mem_pattern_functionColor.1 h
  have hparen := isIdentChar_of_mem_ident hword '(' (List.mem_append_right name List.mem_cons_self)
  exact absurd hparen (by decide)

/-- No number is a dimension, which has a unit. -/
theorem not_mem_number_of_mem_dimension (h : cs ∈ dimension.pattern) : cs ∉ number.pattern := by
  rintro hnumber
  obtain ⟨n, -, u, hu, rfl⟩ := mem_pattern_dimension.1 h
  obtain ⟨c, tail, rfl, hc⟩ := exists_cons_of_mem_unit hu
  rw [isNumeric_of_mem_number hnumber c (List.mem_append_right n List.mem_cons_self)] at hc
  cases hc

/-- **A text is of one kind at most.**  By its first character it is of one kind, or of two that
begin alike; of those the one is told from the other by a character it has and the other cannot
have. -/
theorem eq_of_mem_pattern (hk : cs ∈ k.pattern) (hl : cs ∈ l.pattern) : k = l := by
  obtain ⟨c, tail, rfl, hkc⟩ := exists_cons_of_mem_pattern hk
  have hlc := startsWith_of_mem_pattern hl
  by_cases hmark : c ∈ marks
  · exact eq_of_startsWith_of_mem_marks hmark hkc hlc
  cases hc : Token.isIdentStart c with
  | true =>
    obtain rfl | rfl := eq_of_startsWith_of_isIdentStart hc hkc <;>
      obtain rfl | rfl := eq_of_startsWith_of_isIdentStart hc hlc
    · rfl
    · exact absurd hk (not_mem_ident_of_mem_functionColor hl)
    · exact absurd hl (not_mem_ident_of_mem_functionColor hk)
    · rfl
  | false =>
    obtain rfl | rfl := eq_of_startsWith_of_not hmark hc hkc <;>
      obtain rfl | rfl := eq_of_startsWith_of_not hmark hc hlc
    · rfl
    · exact absurd hk (not_mem_number_of_mem_dimension hl)
    · exact absurd hl (not_mem_number_of_mem_dimension hk)
    · rfl

end TokenKind

end ScreenLayout
