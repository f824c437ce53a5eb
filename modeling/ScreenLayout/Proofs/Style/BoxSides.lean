import ScreenLayout.Proofs.Style.Dimension
import ScreenLayout.Proofs.Style.Expansion
import ScreenLayout.Proofs.Style.Merge
import ScreenLayout.Proofs.Style.ShorthandWrites
import ScreenLayout.Proofs.Text.Case

/-!
# Proofs/Style/BoxSides — the four sides of a box

One to four words around a box stand for its four sides.  They are written under the names of sides,
of axes or of the property alone, as few as the words; a side is read at its own name, else at that of
its axis, else at that of the property.

    1px 2px 3px   ──▸   Top 1, Horizontal 2, Bottom 3   ──▸   top 1, right 2, bottom 3, left 2

* `Shorthand.SideWord` — a word and the value it stands for.
* `Sides.ofValues?` — the sides that one to four values stand for, `Style.sides` those in a style.
* `Shorthand.boxOfText_eq_ok_iff` — the texts that are accepted, and what they write.
* `Shorthand.box_means_sides` — a box is accepted for its words, and its sides are read back.
-/

namespace ScreenLayout

/-! ## Sides -/

/-- **A value for each side of a box**, clockwise from the top. -/
structure Sides (α : Type) where
  top : α
  right : α
  bottom : α
  left : α

namespace Sides

variable {α β : Type}

def map (f : α → β) (sides : Sides α) : Sides β :=
  ⟨f sides.top, f sides.right, f sides.bottom, f sides.left⟩

/-- **The sides that one to four values stand for**: all; vertical and horizontal; top, horizontal
and bottom; or one for each. -/
def ofValues? : List α → Option (Sides α)
  | [a] => some ⟨a, a, a, a⟩
  | [a, b] => some ⟨a, b, a, b⟩
  | [a, b, c] => some ⟨a, b, c, b⟩
  | [a, b, c, d] => some ⟨a, b, c, d⟩
  | _ => none

end Sides

namespace Style

/-- The value of a side: at its own name, else at that of its axis, else at that of all sides. -/
def side? (s : Style) (name side axis : String) : Option StyleValue :=
  (s.get? (name ++ side)).or ((s.get? (name ++ axis)).or (s.get? name))

/-- **The sides of a box in a style.** -/
def sides (s : Style) (name : String) : Sides (Option StyleValue) where
  top := s.side? name "Top" "Vertical"
  right := s.side? name "Right" "Horizontal"
  bottom := s.side? name "Bottom" "Vertical"
  left := s.side? name "Left" "Horizontal"

end Style

namespace Shorthand

/-! ## Words -/

/-- **What a word of a box stands for**: `auto`, in any case, or a length without its unit. -/
inductive SideWord : List Char → StyleValue → Prop
  | auto {word : List Char} (h : Text.sameAscii word "auto".toList) : SideWord word (.text "auto")
  | length {word : List Char} {d : Dimension} (h : Dimension.parse? word = some d) :
    SideWord word (.number d.value)

/-- No length is spelled `auto`: it has a digit. -/
theorem not_sameAscii_auto_of_parse? {word : List Char} {d : Dimension}
    (h : Dimension.parse? word = some d) : ¬ Text.sameAscii word "auto".toList := by
  intro hauto
  obtain ⟨c, hc, hdigit⟩ := Dimension.exists_isDigit_of_parse? h
  have hmem : c ∈ word := Text.mem_of_mem_trim ((List.takeWhile_sublist _).subset hc)
  have hlower : c.toLower ∈ Text.lowerAscii "auto".toList := by
    rw [← eq_of_beq hauto]
    exact List.mem_map_of_mem hmem
  rw [Text.toLower_of_not_isAlpha (isAlpha_of_isDigit hdigit)] at hlower
  have hletters : (Text.lowerAscii "auto".toList).all (!Char.isDigit ·) := by decide
  rw [Text.eq_false_of_all hletters hlower] at hdigit
  cases hdigit

theorem lengthPart?_eq_some_iff {word : List Char} {v : StyleValue}
    (hfree : ∀ c ∈ word, Text.isBlank c = false) :
    StyleValue.lengthPart? word = some v ↔ SideWord word v := by
  rw [StyleValue.lengthPart?, Text.trim_of_free hfree]
  constructor
  · intro h
    split at h
    · rename_i hauto
      cases h
      exact .auto hauto
    · obtain ⟨d, hd, rfl⟩ := Option.map_eq_some_iff.1 h
      exact .length hd
  · rintro (hauto | hd)
    · rw [if_pos hauto]
    · rw [if_neg (not_sameAscii_auto_of_parse? hd), hd]
      rfl

theorem exists_sideWord_iff {word : List Char} : (∃ v, SideWord word v) ↔
    Text.sameAscii word "auto".toList ∨ (Dimension.parse? word).isSome := by
  constructor
  · rintro ⟨_, hauto | hd⟩
    · exact .inl hauto
    · exact .inr (Option.isSome_iff_exists.2 ⟨_, hd⟩)
  · rintro (hauto | hd)
    · exact ⟨_, .auto hauto⟩
    · obtain ⟨d, hd⟩ := Option.isSome_iff_exists.1 hd
      exact ⟨_, .length hd⟩

/-- A list has values one for one if each entry has one. -/
theorem exists_forall₂_iff {α β : Type} {R : α → β → Prop} {l : List α} :
    (∃ l', List.Forall₂ R l l') ↔ ∀ a ∈ l, ∃ b, R a b := by
  induction l with
  | nil => exact ⟨fun _ _ ha => absurd ha List.not_mem_nil, fun _ => ⟨[], .nil⟩⟩
  | cons a l ih =>
    rw [List.forall_mem_cons, ← ih]
    constructor
    · rintro ⟨_, _ | ⟨hhead, hrest⟩⟩
      exact ⟨⟨_, hhead⟩, _, hrest⟩
    · rintro ⟨⟨b, hhead⟩, l', hrest⟩
      exact ⟨b :: l', .cons hhead hrest⟩

/-- **The values of words**, read one by one. -/
theorem find?_filterMap_iff_forall₂ {α β : Type} {f : α → Option β} {l : List α} {l' : List β} :
    ((l.find? fun a => (f a).isNone) = none ∧ l.filterMap f = l')
      ↔ List.Forall₂ (fun a b => f a = some b) l l' := by
  induction l generalizing l' with
  | nil => simp [eq_comm]
  | cons a l ih =>
    rw [List.forall₂_cons_left_iff]
    cases ha : f a with
    | none => simp [ha]
    | some b =>
      rw [List.find?_cons_of_neg (by simp [ha]), List.filterMap_cons_some ha]
      constructor
      · rintro ⟨hfind, rfl⟩
        exact ⟨b, _, rfl, ih.1 ⟨hfind, rfl⟩, rfl⟩
      · rintro ⟨b', l', hb, hrest, rfl⟩
        obtain ⟨hfind, rfl⟩ := ih.2 hrest
        cases hb
        exact ⟨hfind, rfl⟩

theorem forall₂_sideWord_iff {words : List (List Char)} {values : List StyleValue}
    (hfree : ∀ word ∈ words, ∀ c ∈ word, Text.isBlank c = false) :
    List.Forall₂ (fun word v => StyleValue.lengthPart? word = some v) words values
      ↔ List.Forall₂ SideWord words values := by
  induction words generalizing values with
  | nil => rw [List.forall₂_nil_left_iff, List.forall₂_nil_left_iff]
  | cons word words ih =>
    obtain ⟨hword, hwords⟩ := List.forall_mem_cons.1 hfree
    simp only [List.forall₂_cons_left_iff, lengthPart?_eq_some_iff hword, ih hwords]

/-- **A box is accepted for its words**: each stands for a value, and they are one to four. -/
theorem boxOfText_eq_ok_iff {name : String} {cs : List Char} {p : StylePatch} :
    boxOfText name cs = .ok p ↔ ∃ values writes, List.Forall₂ SideWord (Text.words cs) values ∧
      boxWrites name values = some writes ∧ p = { writes } := by
  have hfree : ∀ word ∈ Text.words cs, ∀ c ∈ word, Text.isBlank c = false :=
    fun _ => Text.isBlank_of_mem_words
  unfold boxOfText
  dsimp only
  constructor
  · intro h
    split at h
    · cases h
    · rename_i hfind
      split at h
      · rename_i writes hwrites
        cases h
        have hvalues := find?_filterMap_iff_forall₂.1 ⟨hfind, rfl⟩
        exact ⟨_, writes, (forall₂_sideWord_iff hfree).1 hvalues, hwrites, rfl⟩
      · cases h
  · rintro ⟨values, writes, hvalues, hwrites, rfl⟩
    obtain ⟨hfind, rfl⟩ := find?_filterMap_iff_forall₂.2 ((forall₂_sideWord_iff hfree).2 hvalues)
    rw [hfind]
    dsimp only
    rw [hwrites]

/-! ## What is written -/

/-- Names are written that begin with that of the property. -/
theorem boxWrites_eq (name : String) (values : List StyleValue) : boxWrites name values
    = (boxWrites "" values).map fun writes => writes.map fun e => (name ++ e.1, e.2) := by
  unfold boxWrites
  split <;> simp

theorem lastWrite?_map_append (name key : String) (writes : List (String × StyleValue)) :
    Properties.lastWrite? (writes.map fun e => (name ++ e.1, e.2)) (name ++ key)
      = Properties.lastWrite? writes key := by
  rw [Properties.lastWrite?, Properties.lastWrite?, ← List.map_reverse]
  induction writes.reverse with
  | nil => rfl
  | cons e entries ih =>
    rw [List.map_cons, Properties.lookup_cons_eq_ite, Properties.lookup_cons_eq_ite, ih]
    simp only [String.append_right_inj]

variable {name : String} {values : List StyleValue} {writes : List (String × StyleValue)}

theorem exists_boxWrites_iff :
    (∃ writes, boxWrites name values = some writes) ↔ 1 ≤ values.length ∧ values.length ≤ 4 := by
  rcases values with _ | ⟨a, _ | ⟨b, _ | ⟨c, _ | ⟨d, _ | ⟨e, values⟩⟩⟩⟩⟩ <;> simp [boxWrites]

/-- **As many properties are written as there are values**: their names are different. -/
theorem size_boxWrites (h : boxWrites name values = some writes) :
    (Style.empty.apply { writes }).size = values.length := by
  rw [boxWrites_eq] at h
  obtain ⟨base, hbase, rfl⟩ := Option.map_eq_some_iff.1 h
  have hshape : base.length = values.length ∧ (base.map Prod.fst).Nodup := by
    unfold boxWrites at hbase
    split at hbase <;> cases hbase <;> exact ⟨rfl, by simp⟩
  have hnodup : ((base.map fun e => (name ++ e.1, e.2)).map Prod.fst).Nodup := by
    have hnames : (base.map fun e => (name ++ e.1, e.2)).map Prod.fst
        = (base.map Prod.fst).map (name ++ ·) := by
      rw [List.map_map, List.map_map]
      rfl
    rw [hnames]
    exact List.Pairwise.map _ (fun _ _ hne heq => hne ((String.append_right_inj name).1 heq)) hshape.2
  have hsize := Properties.size_insertMany (p := Properties.empty) (fun _ _ => rfl) hnodup
  rw [List.length_map, hshape.1] at hsize
  exact hsize.trans (Nat.zero_add _)

/-- A side of what is written begins with the name of the property, as do its axis and the whole. -/
theorem side?_map_append (name side axis : String) (base : List (String × StyleValue)) :
    (Style.empty.apply { writes := base.map fun e => (name ++ e.1, e.2) }).side? name side axis
      = (Properties.lastWrite? base side).or
        ((Properties.lastWrite? base axis).or (Properties.lastWrite? base "")) := by
  have hget : ∀ key, (Style.empty.apply { writes := base.map fun e => (name ++ e.1, e.2) }).get?
      (name ++ key) = Properties.lastWrite? base key := by
    intro key
    rw [Style.get?_apply, lastWrite?_map_append, Style.get?_empty, Option.or_none]
  have hname := hget ""
  rw [String.append_empty] at hname
  rw [Style.side?, hget, hget, hname]

/-- **The sides are read back** from what is written. -/
theorem sides_boxWrites (h : boxWrites name values = some writes) :
    ∃ sides, Sides.ofValues? values = some sides ∧
      (Style.empty.apply { writes }).sides name = sides.map some := by
  rw [boxWrites_eq] at h
  obtain ⟨base, hbase, rfl⟩ := Option.map_eq_some_iff.1 h
  simp only [Style.sides, side?_map_append]
  unfold boxWrites at hbase
  split at hbase
  · cases hbase
    exact ⟨_, rfl, rfl⟩
  · cases hbase
    exact ⟨_, rfl, rfl⟩
  · cases hbase
    exact ⟨_, rfl, rfl⟩
  · cases hbase
    exact ⟨_, rfl, rfl⟩
  · cases hbase

/-! ## The shorthand -/

/-- **A box text is accepted by every style or by none**, and writes the values of its words. -/
theorem expandBox_run_eq_ok_iff {text : String} {s t : Style} :
    (expandBox name (.string text)).run s = .ok () t ↔
      ∃ values writes, List.Forall₂ SideWord (Text.words text.toList) values ∧
        boxWrites name values = some writes ∧ t = s.apply { writes } := by
  have hpatch : ∀ p, box name (.string text) = .ok p ↔ boxOfText name text.toList = .ok p :=
    fun _ => mapError_eq_ok_iff
  simp only [expandBox_eq, StyleWriter.run_ofPatch_eq_ok_iff, hpatch, boxOfText_eq_ok_iff]
  constructor
  · rintro ⟨_, ⟨values, writes, hvalues, hwrites, rfl⟩, rfl⟩
    exact ⟨values, writes, hvalues, hwrites, rfl⟩
  · rintro ⟨values, writes, hvalues, hwrites, rfl⟩
    exact ⟨_, ⟨values, writes, hvalues, hwrites, rfl⟩, rfl⟩

/-- **A box means its four sides.**  It is accepted for one to four words, each `auto` or a length;
it then writes as many properties as there are words, and the sides read from them are those that the
values of the words stand for. -/
theorem box_means_sides (name text : String) :
    (∀ s, (∃ t, (expandBox name (.string text)).run s = .ok () t) ↔
      (1 ≤ (Text.words text.toList).length ∧ (Text.words text.toList).length ≤ 4)
        ∧ ∀ word ∈ Text.words text.toList,
          Text.sameAscii word "auto".toList ∨ (Dimension.parse? word).isSome)
    ∧ ∀ t, (expandBox name (.string text)).run Style.empty = .ok () t →
        t.size = (Text.words text.toList).length
        ∧ ∃ values sides, List.Forall₂ SideWord (Text.words text.toList) values
          ∧ Sides.ofValues? values = some sides ∧ t.sides name = sides.map some := by
  refine ⟨fun s => ?_, fun t h => ?_⟩
  · constructor
    · rintro ⟨t, h⟩
      obtain ⟨values, writes, hvalues, hwrites, -⟩ := expandBox_run_eq_ok_iff.1 h
      rw [hvalues.length_eq]
      exact ⟨exists_boxWrites_iff.1 ⟨writes, hwrites⟩, fun word hword =>
        exists_sideWord_iff.1 (exists_forall₂_iff.1 ⟨values, hvalues⟩ word hword)⟩
    · rintro ⟨hcount, hwords⟩
      obtain ⟨values, hvalues⟩ :=
        exists_forall₂_iff.2 fun word hword => exists_sideWord_iff.2 (hwords word hword)
      rw [hvalues.length_eq] at hcount
      obtain ⟨writes, hwrites⟩ := exists_boxWrites_iff.2 hcount
      exact ⟨_, expandBox_run_eq_ok_iff.2 ⟨values, writes, hvalues, hwrites, rfl⟩⟩
  · obtain ⟨values, writes, hvalues, hwrites, rfl⟩ := expandBox_run_eq_ok_iff.1 h
    obtain ⟨sides, hsides, hread⟩ := sides_boxWrites hwrites
    exact ⟨(size_boxWrites hwrites).trans hvalues.length_eq.symm, values, sides, hvalues, hsides,
      hread⟩

/-- Three words, the second for the sides at the left and the right. -/
theorem box_means_sides_auto :
    ∃ t, (expandBox "margin" (.string "1px AUTO 3px")).run Style.empty = .ok () t ∧ t.size = 3
      ∧ ∃ values sides, List.Forall₂ SideWord ["1px".toList, "AUTO".toList, "3px".toList] values
        ∧ Sides.ofValues? values = some sides ∧ t.sides "margin" = sides.map some := by
  have hwords : Text.words "1px AUTO 3px".toList = ["1px".toList, "AUTO".toList, "3px".toList] := by
    decide +kernel
  have h := box_means_sides "margin" "1px AUTO 3px"
  rw [hwords] at h
  obtain ⟨t, ht⟩ := (h.1 Style.empty).2 ⟨by decide, by decide +kernel⟩
  exact ⟨t, ht, h.2 t ht⟩

end Shorthand

end ScreenLayout
