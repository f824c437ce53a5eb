import ScreenLayout.Proofs.Text.Bytes
import ScreenLayout.Style.Gradient

/-!
# Proofs/Style/GradientOpening — where a gradient begins

A gradient begins at the first opening of a text, in any case.  It may be looked for in the bytes of
the text in lower case: lowering ASCII letters changes no length, and the bytes of the opening begin
where a character does, so the offset found there is a place between two characters of the text, and
the opening begins at it.

* `Gradient.IsFirstOpening` — the first opening of a text.
* `Gradient.afterOpening?_eq_some_iff` — what follows it is found.
* `Gradient.foundAt_iff` — the offset found in lower case is where it is.
-/

namespace ScreenLayout

namespace Gradient

variable {cs front spelled rest : List Char} {offset : Nat}

/-- **The first opening of a text**, in any case: what stands before it, how it is spelled, and what
follows. -/
structure IsFirstOpening (front spelled rest cs : List Char) : Prop where
  text : cs = front ++ (spelled ++ rest)
  opens : Text.sameAscii spelled opening
  first : ∀ front' spelled' rest', cs = front' ++ (spelled' ++ rest') →
    Text.sameAscii spelled' opening → front <+: front'

theorem lowerAscii_opening : Text.lowerAscii opening = opening := by decide

theorem sameAscii_opening_iff : Text.sameAscii spelled opening ↔ Text.lowerAscii spelled = opening := by
  rw [Text.sameAscii, beq_iff_eq, lowerAscii_opening]

theorem length_of_sameAscii_opening (h : Text.sameAscii spelled opening) :
    spelled.length = opening.length := by
  rw [← sameAscii_opening_iff.1 h, Text.lowerAscii, List.length_map]

/-- The first characters of a text are compared with the opening. -/
theorem sameAscii_take_iff : Text.sameAscii (cs.take opening.length) opening ↔
    ∃ spelled rest, cs = spelled ++ rest ∧ Text.sameAscii spelled opening := by
  constructor
  · exact fun h => ⟨_, _, (List.take_append_drop opening.length cs).symm, h⟩
  · rintro ⟨spelled, rest, rfl, h⟩
    rwa [← length_of_sameAscii_opening h, List.take_left]

theorem afterOpening?_append (h : Text.sameAscii spelled opening) (rest : List Char) :
    afterOpening? (spelled ++ rest) = some rest := by
  have hlength := length_of_sameAscii_opening h
  obtain ⟨c, cs, hspelled⟩ : ∃ c cs, spelled = c :: cs :=
    List.exists_cons_of_ne_nil (List.ne_nil_of_length_eq_add_one hlength)
  have htext : spelled ++ rest = c :: (cs ++ rest) := by rw [hspelled]; rfl
  rw [htext, afterOpening?, ← htext, ← hlength, List.take_left, List.drop_left, if_pos h]

theorem afterOpening?_cons {c : Char}
    (h : ¬ ∃ spelled rest, c :: cs = spelled ++ rest ∧ Text.sameAscii spelled opening) :
    afterOpening? (c :: cs) = afterOpening? cs := by
  rw [afterOpening?, if_neg (mt sameAscii_take_iff.1 h)]

/-- A text with an opening further on is searched for the first. -/
theorem isFirstOpening_cons_iff {c : Char}
    (h : ¬ ∃ spelled rest, c :: cs = spelled ++ rest ∧ Text.sameAscii spelled opening) :
    IsFirstOpening (c :: front) spelled rest (c :: cs) ↔ IsFirstOpening front spelled rest cs := by
  constructor
  · rintro ⟨htext, hopens, hfirst⟩
    refine ⟨List.tail_eq_of_cons_eq htext, hopens, fun front' spelled' rest' hcs hopens' => ?_⟩
    exact List.prefix_cons_inj c |>.1
      (hfirst (c :: front') spelled' rest' (congrArg (c :: ·) hcs) hopens')
  · rintro ⟨rfl, hopens, hfirst⟩
    refine ⟨rfl, hopens, fun front' spelled' rest' hcs hopens' => ?_⟩
    obtain _ | ⟨d, front'⟩ := front'
    · exact absurd ⟨spelled', rest', hcs, hopens'⟩ h
    · obtain ⟨rfl, htail⟩ := List.cons.inj hcs
      exact List.prefix_cons_inj c |>.2 (hfirst front' spelled' rest' htail hopens')

/-- **What follows the first opening** is found. -/
theorem afterOpening?_eq_some_iff :
    afterOpening? cs = some rest ↔ ∃ front spelled, IsFirstOpening front spelled rest cs := by
  induction cs with
  | nil =>
    refine iff_of_false (Option.some_ne_none rest).symm ?_
    rintro ⟨front, spelled, htext, hopens, -⟩
    obtain ⟨-, hnil⟩ := List.append_eq_nil_iff.1 htext.symm
    rw [(List.append_eq_nil_iff.1 hnil).1] at hopens
    exact absurd hopens (by decide)
  | cons c cs ih =>
    by_cases hhead : ∃ spelled rest, c :: cs = spelled ++ rest ∧ Text.sameAscii spelled opening
    · obtain ⟨spelled, after, hcs, hopens⟩ := hhead
      rw [hcs, afterOpening?_append hopens]
      constructor
      · rintro ⟨rfl⟩
        exact ⟨[], spelled, rfl, hopens, fun _ _ _ _ _ => List.nil_prefix⟩
      · rintro ⟨front, other, htext, hopens', hfirst⟩
        obtain rfl := List.prefix_nil.1 (hfirst [] spelled after rfl hopens)
        have hlength : spelled.length = other.length := by
          rw [length_of_sameAscii_opening hopens, length_of_sameAscii_opening hopens']
        have hcs : spelled ++ after = other ++ rest := htext
        rw [(List.append_inj hcs hlength).2]
    · rw [afterOpening?_cons hhead, ih]
      constructor
      · rintro ⟨front, spelled, hfirst⟩
        exact ⟨c :: front, spelled, (isFirstOpening_cons_iff hhead).2 hfirst⟩
      · rintro ⟨front, spelled, hfirst⟩
        obtain _ | ⟨d, front⟩ := front
        · exact absurd ⟨spelled, rest, hfirst.text, hfirst.opens⟩ hhead
        · obtain ⟨rfl, -⟩ := List.cons.inj hfirst.text
          exact ⟨front, spelled, (isFirstOpening_cons_iff hhead).1 hfirst⟩

theorem isSome_afterOpening?_append (hopens : Text.sameAscii spelled opening) (front rest : List Char) :
    (afterOpening? (front ++ (spelled ++ rest))).isSome := by
  induction front with
  | nil =>
    rw [List.nil_append, afterOpening?_append hopens]
    rfl
  | cons c front ih =>
    by_cases hhead : ∃ other after, c :: (front ++ (spelled ++ rest)) = other ++ after ∧
        Text.sameAscii other opening
    · obtain ⟨other, after, hcs, hother⟩ := hhead
      rw [List.cons_append, hcs, afterOpening?_append hother]
      rfl
    · rw [List.cons_append, afterOpening?_cons hhead]
      exact ih

theorem afterOpening?_eq_none_iff : afterOpening? cs = none ↔
    ∀ front spelled rest, cs = front ++ (spelled ++ rest) → ¬ Text.sameAscii spelled opening := by
  constructor
  · rintro hnone front spelled rest rfl hopens
    have hsome := isSome_afterOpening?_append hopens front rest
    rw [hnone] at hsome
    cases hsome
  · intro h
    refine Option.eq_none_iff_forall_ne_some.2 fun rest hrest => ?_
    obtain ⟨front, spelled, hfirst⟩ := afterOpening?_eq_some_iff.1 hrest
    exact h front spelled rest hfirst.text hfirst.opens

/-! ## In bytes -/

/-- The openings of a text stand in the bytes of its lower-case copy, at the places they have in the
text. -/
theorem opening_prefix_drop_iff :
    Text.bytes (String.ofList opening) <+:
        (Text.bytes (String.ofList (Text.lowerAscii cs))).drop offset ↔
      ∃ front spelled rest, cs = front ++ (spelled ++ rest) ∧ Text.sameAscii spelled opening ∧
        (Text.bytes (String.ofList front)).length = offset := by
  have hne : opening ≠ [] := by decide
  rw [Text.prefix_drop_bytes_iff hne]
  constructor
  · rintro ⟨front, rest, hcs, hoffset⟩
    obtain ⟨before, after, rfl, rfl, hafter⟩ := List.map_eq_append_iff.1 hcs
    obtain ⟨spelled, tail, rfl, hspelled, -⟩ := List.map_eq_append_iff.1 hafter
    exact ⟨before, spelled, tail, rfl, sameAscii_opening_iff.2 hspelled,
      (Text.length_bytes_lowerAscii before).symm.trans hoffset⟩
  · rintro ⟨front, spelled, rest, rfl, hopens, rfl⟩
    refine ⟨Text.lowerAscii front, Text.lowerAscii rest, ?_, Text.length_bytes_lowerAscii front⟩
    rw [← sameAscii_opening_iff.1 hopens]
    simp only [Text.lowerAscii, List.map_append]

/-- Fronts of one text are ordered as the lengths of their bytes. -/
theorem prefix_of_length_bytes_le {front' : List Char} (h : front <+: cs) (h' : front' <+: cs)
    (hle : (Text.bytes (String.ofList front)).length ≤ (Text.bytes (String.ofList front')).length) :
    front <+: front' :=
  Text.prefix_of_bytes_prefix (List.prefix_of_prefix_length_le (Text.bytes_prefix_of_prefix h)
    (Text.bytes_prefix_of_prefix h') hle)

/-- **The offset of the first opening as it is found**: in the bytes of the text in lower case. -/
def FoundAt (cs : List Char) (offset : Nat) : Prop :=
  Text.IsFirstAt (Text.bytes (String.ofList opening))
    (Text.bytes (String.ofList (Text.lowerAscii cs))) offset

/-- **An offset where the first opening is** in the text itself: it begins and ends there between two
characters, and what follows is what is read on. -/
structure OpensAt (offset : Nat) (front spelled rest cs : List Char) : Prop where
  first : IsFirstOpening front spelled rest cs
  offset_eq : (Text.bytes (String.ofList front)).length = offset
  boundary : String.Pos.Raw.IsValid (String.ofList cs) ⟨offset⟩
  boundary_after : String.Pos.Raw.IsValid (String.ofList cs)
    ⟨offset + (Text.bytes (String.ofList opening)).length⟩
  after : (Text.bytes (String.ofList cs)).drop (offset + (Text.bytes (String.ofList opening)).length)
    = Text.bytes (String.ofList rest)
  taken : afterOpening? cs = some rest

theorem IsFirstOpening.opensAt (h : IsFirstOpening front spelled rest cs) :
    OpensAt (Text.bytes (String.ofList front)).length front spelled rest cs := by
  have htext : cs = front ++ spelled ++ rest := h.text.trans (List.append_assoc _ _ _).symm
  have hlength : (Text.bytes (String.ofList (front ++ spelled))).length
      = (Text.bytes (String.ofList front)).length + (Text.bytes (String.ofList opening)).length := by
    rw [Text.bytes_ofList_append, List.length_append, ← sameAscii_opening_iff.1 h.opens,
      Text.length_bytes_lowerAscii]
  refine ⟨h, rfl, Text.isValid_of_prefix ⟨spelled ++ rest, h.text.symm⟩, ?_, ?_,
    afterOpening?_eq_some_iff.2 ⟨front, spelled, h⟩⟩
  · rw [← hlength]
    exact Text.isValid_of_prefix ⟨rest, htext.symm⟩
  · rw [← hlength, htext, Text.bytes_ofList_append (front ++ spelled), List.drop_left]

/-- **The offset found in lower case** is where the first opening of the text is. -/
theorem foundAt_iff :
    FoundAt cs offset ↔ ∃ front spelled rest, OpensAt offset front spelled rest cs := by
  constructor
  · rintro ⟨hfound, hleast⟩
    obtain ⟨front, spelled, rest, hcs, hopens, rfl⟩ := opening_prefix_drop_iff.1 hfound
    have hfirst : IsFirstOpening front spelled rest cs := by
      refine ⟨hcs, hopens, fun front' spelled' rest' hcs' hopens' => ?_⟩
      refine prefix_of_length_bytes_le ⟨_, hcs.symm⟩ ⟨_, hcs'.symm⟩ (Nat.le_of_not_lt fun hlt => ?_)
      exact hleast _ hlt (opening_prefix_drop_iff.2 ⟨front', spelled', rest', hcs', hopens', rfl⟩)
    exact ⟨front, spelled, rest, hfirst.opensAt⟩
  · rintro ⟨front, spelled, rest, ⟨⟨hcs, hopens, hfirst⟩, rfl, -⟩⟩
    refine ⟨opening_prefix_drop_iff.2 ⟨front, spelled, rest, hcs, hopens, rfl⟩,
      fun before hlt hfound => ?_⟩
    obtain ⟨front', spelled', rest', hcs', hopens', rfl⟩ := opening_prefix_drop_iff.1 hfound
    have hfront := hfirst front' spelled' rest' hcs' hopens'
    exact Nat.not_le_of_lt hlt (Text.bytes_prefix_of_prefix hfront).length_le

/-- A text that opens nowhere is the one in which no offset is found. -/
theorem afterOpening?_eq_none_iff_foundAt :
    afterOpening? cs = none ↔ ∀ offset, ¬ FoundAt cs offset := by
  constructor
  · intro hnone offset hfound
    obtain ⟨front, spelled, rest, hopens⟩ := foundAt_iff.1 hfound
    exact Option.some_ne_none rest (hopens.taken.symm.trans hnone)
  · intro h
    refine Option.eq_none_iff_forall_ne_some.2 fun rest hrest => ?_
    obtain ⟨front, spelled, hfirst⟩ := afterOpening?_eq_some_iff.1 hrest
    exact h _ (foundAt_iff.2 ⟨front, spelled, rest, hfirst.opensAt⟩)

end Gradient

end ScreenLayout
