/-!
# Text/Blank — white space and the words between it

A text is a list of characters.  Blank characters are the twenty-five with the Unicode property
*White_Space*; trimming removes them at the ends, and words are the maximal runs without one.
-/

namespace ScreenLayout.Text

/-- The characters with the property White_Space. -/
def blanks : List Char :=
  ['\t', '\n', '\x0b', '\x0c', '\r', ' ', '\u0085', '\u00a0', '\u1680', '\u2000', '\u2001',
   '\u2002', '\u2003', '\u2004', '\u2005', '\u2006', '\u2007', '\u2008', '\u2009', '\u200a',
   '\u2028', '\u2029', '\u202f', '\u205f', '\u3000']

def isBlank (c : Char) : Bool := blanks.contains c

/-! ## Trimming -/

/-- A text without the characters it ends in that satisfy `p`. -/
def dropEndWhile (p : Char → Bool) (cs : List Char) : List Char := (cs.reverse.dropWhile p).reverse

def trimStart (cs : List Char) : List Char := cs.dropWhile isBlank
def trimEnd (cs : List Char) : List Char := dropEndWhile isBlank cs

/-- A text without the blanks at its ends. -/
def trim (cs : List Char) : List Char := trimEnd (trimStart cs)

theorem length_dropEndWhile_le (p : Char → Bool) (cs : List Char) :
    (dropEndWhile p cs).length ≤ cs.length := by
  have := (List.dropWhile_sublist p (l := cs.reverse)).length_le
  simpa [dropEndWhile] using this

/-! ## Splitting -/

/-- The pieces between the characters that satisfy `p`, empty ones included. -/
def splitOn (p : Char → Bool) : List Char → List (List Char)
  | [] => [[]]
  | c :: cs =>
    if p c then [] :: splitOn p cs
    else match splitOn p cs with
      | [] => [[c]]
      | piece :: pieces => (c :: piece) :: pieces

/-- **The words of a text**: the non-empty pieces between blanks. -/
def words (cs : List Char) : List (List Char) := (splitOn isBlank cs).filter (!·.isEmpty)

/-- The parts before and after the first `sep`. -/
def splitOnce? (sep : Char) (cs : List Char) : Option (List Char × List Char) :=
  match cs.dropWhile (· != sep) with
  | [] => none
  | _ :: rest => some (cs.takeWhile (· != sep), rest)

/-- The parts before and after the last character that satisfies `p`. -/
def splitLast? (p : Char → Bool) (cs : List Char) : Option (List Char × List Char) :=
  match cs.reverse.dropWhile (!p ·) with
  | [] => none
  | _ :: rest => some (rest.reverse, (cs.reverse.takeWhile (!p ·)).reverse)

theorem length_splitLast?_lt {p : Char → Bool} {cs head tail : List Char}
    (h : splitLast? p cs = some (head, tail)) : head.length < cs.length := by
  unfold splitLast? at h
  split at h
  · cases h
  · rename_i c rest hd
    cases h
    have := (List.dropWhile_sublist (!p ·) (l := cs.reverse)).length_le
    rw [hd] at this
    simp only [List.length_cons, List.length_reverse] at this ⊢
    omega

/-- Pieces written one after the other with `sep` between them. -/
def joined (sep : List Char) (pieces : List (List Char)) : List Char := sep.intercalate pieces

/-! ## Searching -/

/-- Whether `pat` occurs in a text. -/
def contains (pat : List Char) : List Char → Bool
  | [] => pat.isEmpty
  | c :: cs => pat.isPrefixOf (c :: cs) || contains pat cs

end ScreenLayout.Text
