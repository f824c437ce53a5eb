import ScreenLayout.Text.Case.Table

/-!
# Text/Case — lower and upper case

`Text.lowerAscii` changes the ASCII letters only.  `Text.lower` is the full lower-case mapping: a
character may become several, and a capital sigma that ends a word becomes the final form.

* `lowerAscii_idem` — lowering ASCII letters twice is lowering them once.
-/

namespace ScreenLayout.Text

/-- A text with its ASCII letters in lower case. -/
def lowerAscii (cs : List Char) : List Char := cs.map Char.toLower

/-- Equality up to the case of ASCII letters. -/
def sameAscii (cs ds : List Char) : Bool := lowerAscii cs == lowerAscii ds

namespace Case

/-- The image of a character under the rows of a table. -/
def shifted (rows : List (Nat × Nat × Nat × Int)) (n : Nat) : Option Nat :=
  rows.findSome? fun (first, last, step, shift) =>
    if first ≤ n && n ≤ last && (n - first) % step == 0 then some ((n : Int) + shift).toNat else none

/-- The mapping of a character beyond ASCII by two tables; itself if neither has it. -/
def mapped (rows : List (Nat × Nat × Nat × Int)) (expansions : List (Nat × List Nat)) (c : Char) :
    List Char :=
  match expansions.lookup c.toNat with
  | some ns => ns.map Char.ofNat
  | none => match shifted rows c.toNat with
    | some n => [Char.ofNat n]
    | none => [c]

def isAscii (c : Char) : Bool := c.toNat < 0x80

/-- The lower-case form of a character by itself. -/
def lowerChar (c : Char) : List Char :=
  if isAscii c then [c.toLower] else mapped lowerRows lowerExpansions c

/-- The upper-case form of a character. -/
def upperChar (c : Char) : List Char :=
  if isAscii c then [c.toUpper] else mapped upperRows upperExpansions c

def inRanges (ranges : List (Nat × Nat)) (c : Char) : Bool :=
  ranges.any fun (first, last) => first ≤ c.toNat && c.toNat ≤ last

/-- Whether the first character that is not looked through is a cased letter. -/
def meetsCased (cs : List Char) : Bool :=
  match cs.dropWhile (inRanges ignorableRanges) with
  | [] => false
  | c :: _ => inRanges casedRanges c

/-- Lower case, given the characters before in reverse order: a capital sigma after a cased letter
and before none is final. -/
def lowerAfter (before : List Char) : List Char → List Char
  | [] => []
  | c :: cs =>
    let image :=
      if c = 'Σ' then [if meetsCased before && !meetsCased cs then 'ς' else 'σ'] else lowerChar c
    image ++ lowerAfter (c :: before) cs

end Case

/-- **The lower-case form of a text.** -/
def lower (cs : List Char) : List Char := Case.lowerAfter [] cs

/-- A capital sigma is final at the end of a word, and a dotted capital i keeps its dot. -/
example : lower "ΟΔΟΣ İΣ".toList = "οδος i̇ς".toList := by decide +kernel

/-! ## ASCII letters -/

theorem toLower_toLower (c : Char) : c.toLower.toLower = c.toLower := by
  have hA : 'A'.val.toNat = 65 := rfl
  have hZ : 'Z'.val.toNat = 90 := rfl
  have hd : ('a'.val - 'A'.val).toNat = 32 := rfl
  unfold Char.toLower
  split
  · rename_i h
    rw [dif_neg]
    simp only [UInt32.le_iff_toNat_le, UInt32.toNat_add, ge_iff_le] at h ⊢
    omega
  · rfl

theorem lowerAscii_idem (cs : List Char) : lowerAscii (lowerAscii cs) = lowerAscii cs := by
  rw [lowerAscii, lowerAscii, List.map_map]
  exact List.map_congr_left fun c _ => toLower_toLower c

end ScreenLayout.Text
