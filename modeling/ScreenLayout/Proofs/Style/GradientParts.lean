import ScreenLayout.Proofs.Style.Dimension
import ScreenLayout.Style.Gradient

/-!
# Proofs/Style/GradientParts — the body of a gradient and its parts

The body of a gradient is found by counting parentheses and cut at the commas outside them.  A text is
*nested* when its parentheses match and its commas all stand inside them; a text without any of these
is *flat*, as every number and every dimension is.  Nested texts joined with commas are cut into
themselves again, and the pieces of any balanced body are nested.

* `Gradient.flat_of_parseDimension?` — a dimension is flat.
* `Gradient.balancedBody?_append` — a balanced text is read up to the parenthesis after it.
* `Gradient.piecesWithin_joined` — nested texts are the pieces of their join.
* `Gradient.nested_of_mem_topLevelParts` — the parts of a body are nested.
-/

namespace ScreenLayout

namespace Gradient

/-! ## Flat texts -/

/-- The characters that part the body of a gradient. -/
def marks : List Char := ['(', ')', ',']

/-- **A flat text** has no parenthesis and no comma. -/
def Flat (cs : List Char) : Prop := ∀ c ∈ cs, c ∉ marks

variable {cs ds : List Char}

theorem flat_nil : Flat [] := fun _ hc => absurd hc List.not_mem_nil

theorem flat_append : Flat (cs ++ ds) ↔ Flat cs ∧ Flat ds := List.forall_mem_append

theorem flat_cons {c : Char} : Flat (c :: cs) ↔ c ∉ marks ∧ Flat cs := List.forall_mem_cons

theorem flat_of_forall {p : Char → Bool} (hmarks : marks.all (!p ·)) (h : ∀ c ∈ cs, p c) : Flat cs :=
  fun c hc => Text.not_mem_of_all hmarks (h c hc)

theorem flat_of_isBlank (h : ∀ c ∈ cs, Text.isBlank c) : Flat cs := flat_of_forall (by decide) h

/-- The characters of a text stay when its letters are lowered. -/
theorem flat_of_lowerAscii (h : Flat (Text.lowerAscii cs)) : Flat cs := by
  intro c hc hmark
  have halpha : marks.all (!Char.isAlpha ·) := by decide
  have hlower : c.toLower = c := Text.toLower_of_not_isAlpha (Text.eq_false_of_all halpha hmark)
  exact h c (hlower ▸ List.mem_map_of_mem hc) hmark

theorem flat_trim (h : Flat (Text.trim cs)) : Flat cs := by
  obtain ⟨front, back, hcs, hfront, hback⟩ := Text.exists_eq_append_trim cs
  rw [hcs]
  exact flat_append.2 ⟨flat_of_isBlank hfront, flat_append.2 ⟨h, flat_of_isBlank hback⟩⟩

/-- **A dimension is flat.** -/
theorem flat_of_parseDimension? {d : Dimension} (h : Dimension.parse? cs = some d) : Flat cs :=
  flat_of_forall (by decide) (Dimension.isDimensionChar_of_parse? h)

/-! ## Nested texts -/

/-- **The depth after a text**, none where a parenthesis is closed that was not opened. -/
def depthAfter : (depth : Nat) → List Char → Option Nat
  | depth, [] => some depth
  | depth, c :: cs =>
    if c = '(' then depthAfter (depth + 1) cs
    else if c = ')' then if depth = 0 then none else depthAfter (depth - 1) cs
    else depthAfter depth cs

/-- **All commas inside**: before each of them a parenthesis is open. -/
def CommasInside (depth : Nat) (cs : List Char) : Prop :=
  ∀ i < cs.length, cs[i]? = some ',' → depthAfter depth (cs.take i) ≠ some 0

instance (depth : Nat) (cs : List Char) : Decidable (CommasInside depth cs) :=
  inferInstanceAs (Decidable (∀ i < cs.length, cs[i]? = some ',' → _))

/-- **A text nested at a depth**: it closes just what is open, with its commas inside. -/
structure NestedFrom (depth : Nat) (cs : List Char) : Prop where
  balanced : depthAfter depth cs = some 0
  commas : CommasInside depth cs

variable {depth : Nat}

theorem depthAfter_append (depth : Nat) (cs ds : List Char) :
    depthAfter depth (cs ++ ds) = (depthAfter depth cs).bind (depthAfter · ds) := by
  induction cs generalizing depth with
  | nil => rfl
  | cons c cs ih =>
    rw [List.cons_append, depthAfter, depthAfter]
    split
    · exact ih _
    · split
      · split
        · rfl
        · exact ih _
      · exact ih _

theorem depthAfter_cons_of_not_mem {c : Char} (hc : c ∉ marks) (depth : Nat) (cs : List Char) :
    depthAfter depth (c :: cs) = depthAfter depth cs := by
  have hopen : c ≠ '(' := fun h => hc (h ▸ by decide)
  have hclose : c ≠ ')' := fun h => hc (h ▸ by decide)
  rw [depthAfter, if_neg hopen, if_neg hclose]

theorem depthAfter_of_flat (h : Flat cs) (depth : Nat) : depthAfter depth cs = some depth := by
  induction cs with
  | nil => rfl
  | cons c cs ih =>
    obtain ⟨hc, hcs⟩ := flat_cons.1 h
    rw [depthAfter_cons_of_not_mem hc, ih hcs]

/-- The commas of two texts stand inside when those of the first do, and those of the second at the
depth the first leaves. -/
theorem commasInside_append : CommasInside depth (cs ++ ds) ↔
    CommasInside depth cs ∧ ∀ inner, depthAfter depth cs = some inner → CommasInside inner ds := by
  refine ⟨fun h => ⟨fun i hi hcomma => ?_, fun inner hinner i hi hcomma => ?_⟩,
    fun ⟨hcs, hds⟩ i hi hcomma => ?_⟩
  · have hwhole := h i (by rw [List.length_append]; omega) (by rwa [List.getElem?_append_left hi])
    rwa [List.take_append_of_le_length (Nat.le_of_lt hi)] at hwhole
  · have hwhole := h (cs.length + i) (by rw [List.length_append]; omega)
      (by rwa [List.getElem?_append_right (Nat.le_add_right _ _), Nat.add_sub_cancel_left])
    rwa [List.take_length_add_append, depthAfter_append, hinner] at hwhole
  · rcases Nat.lt_or_ge i cs.length with hfront | hback
    · rw [List.getElem?_append_left hfront] at hcomma
      rw [List.take_append_of_le_length (Nat.le_of_lt hfront)]
      exact hcs i hfront hcomma
    · obtain ⟨j, rfl⟩ := Nat.exists_eq_add_of_le hback
      rw [List.getElem?_append_right hback, Nat.add_sub_cancel_left] at hcomma
      rw [List.length_append] at hi
      rw [List.take_length_add_append, depthAfter_append]
      cases hinner : depthAfter depth cs with
      | none => exact nofun
      | some inner => exact hds inner hinner j (by omega) hcomma

theorem commasInside_of_flat (h : Flat cs) (depth : Nat) : CommasInside depth cs := by
  intro i hi hcomma
  exact absurd (by decide) (h ',' (List.mem_of_getElem? hcomma))

theorem NestedFrom.of_flat (h : Flat cs) : NestedFrom 0 cs :=
  ⟨depthAfter_of_flat h 0, commasInside_of_flat h 0⟩

/-- **A flat text after a text** changes nothing about its nesting. -/
theorem nestedFrom_append_flat (h : Flat ds) : NestedFrom depth (cs ++ ds) ↔ NestedFrom depth cs := by
  have hdepth : depthAfter depth (cs ++ ds) = depthAfter depth cs := by
    rw [depthAfter_append]
    simp only [depthAfter_of_flat h, Option.bind_fun_some]
  have hcommas : CommasInside depth (cs ++ ds) ↔ CommasInside depth cs := by
    rw [commasInside_append, and_iff_left fun inner _ => commasInside_of_flat h inner]
  exact ⟨fun ⟨hb, hc⟩ => ⟨hdepth ▸ hb, hcommas.1 hc⟩, fun ⟨hb, hc⟩ => ⟨hdepth ▸ hb, hcommas.2 hc⟩⟩

theorem nestedFrom_flat_append (h : Flat cs) : NestedFrom depth (cs ++ ds) ↔ NestedFrom depth ds := by
  have hdepth : depthAfter depth (cs ++ ds) = depthAfter depth ds := by
    rw [depthAfter_append, depthAfter_of_flat h]
    rfl
  have hcommas : CommasInside depth (cs ++ ds) ↔ CommasInside depth ds := by
    rw [commasInside_append, and_iff_right (commasInside_of_flat h depth), depthAfter_of_flat h]
    simp
  exact ⟨fun ⟨hb, hc⟩ => ⟨hdepth ▸ hb, hcommas.1 hc⟩, fun ⟨hb, hc⟩ => ⟨hdepth ▸ hb, hcommas.2 hc⟩⟩

theorem nestedFrom_trim : NestedFrom depth (Text.trim cs) ↔ NestedFrom depth cs := by
  obtain ⟨front, back, hcs, hfront, hback⟩ := Text.exists_eq_append_trim cs
  conv_rhs => rw [hcs]
  rw [nestedFrom_flat_append (flat_of_isBlank hfront), nestedFrom_append_flat (flat_of_isBlank hback)]

/-! ## One character further -/

/-- The depth behind a character, where it closes nothing that was not opened. -/
theorem depth_eq_of_depthAfter {c : Char} {inner : Nat} (h : depthAfter depth [c] = some inner) :
    (if c = '(' then depth + 1 else if c = ')' then depth - 1 else depth) = inner := by
  rw [depthAfter] at h
  by_cases hopen : c = '('
  · rw [if_pos hopen] at h ⊢
    exact Option.some.inj h
  · rw [if_neg hopen] at h ⊢
    by_cases hclose : c = ')'
    · rw [if_pos hclose] at h ⊢
      exact Option.some.inj (Option.ite_none_left_eq_some.1 h).2
    · rw [if_neg hclose] at h ⊢
      exact Option.some.inj h

theorem depthAfter_cons_eq_some {c : Char} {last : Nat} (h : depthAfter depth (c :: cs) = some last) :
    ∃ inner, depthAfter depth [c] = some inner ∧ depthAfter inner cs = some last :=
  Option.bind_eq_some_iff.1 ((depthAfter_append depth [c] cs).symm.trans h)

theorem commasInside_cons {c : Char} : CommasInside depth (c :: cs) ↔
    (c = ',' → depth ≠ 0) ∧ ∀ inner, depthAfter depth [c] = some inner → CommasInside inner cs := by
  have hone : CommasInside depth [c] ↔ (c = ',' → depth ≠ 0) := by
    simp [CommasInside, depthAfter]
  rw [← List.singleton_append, commasInside_append, hone]

/-! ## The body up to its parenthesis -/

theorem bodyWithin?_open (depth : Nat) (cs : List Char) :
    bodyWithin? depth ('(' :: cs) = (bodyWithin? (depth + 1) cs).map ('(' :: ·) := by
  cases depth <;> rfl

theorem bodyWithin?_other {c : Char} (hopen : c ≠ '(') (hclose : c ≠ ')') (depth : Nat)
    (cs : List Char) : bodyWithin? depth (c :: cs) = (bodyWithin? depth cs).map (c :: ·) := by
  rw [bodyWithin?]
  · exact hopen
  · exact fun _ => hclose
  · exact fun _ _ => hclose

/-- A character that does not close the body is in it. -/
theorem bodyWithin?_cons {c : Char} {inner : Nat} (h : depthAfter depth [c] = some inner)
    (cs : List Char) : bodyWithin? depth (c :: cs) = (bodyWithin? inner cs).map (c :: ·) := by
  rw [depthAfter] at h
  split at h
  · rename_i hopen
    obtain rfl := Option.some.inj h
    rw [hopen, bodyWithin?_open]
  · rename_i hopen
    split at h
    · rename_i hclose
      cases depth with
      | zero => cases h
      | succ depth =>
        obtain rfl := Option.some.inj h
        rw [hclose]
        rfl
    · rename_i hclose
      obtain rfl := Option.some.inj h
      exact bodyWithin?_other hopen hclose depth cs

/-- **A text is passed over** when it closes no parenthesis that was not opened in it. -/
theorem bodyWithin?_append {inner : Nat} (h : depthAfter depth cs = some inner) (rest : List Char) :
    bodyWithin? depth (cs ++ rest) = (bodyWithin? inner rest).map (cs ++ ·) := by
  induction cs generalizing depth with
  | nil =>
    obtain rfl := Option.some.inj h
    simp
  | cons c cs ih =>
    obtain ⟨mid, hmid, hrest⟩ := depthAfter_cons_eq_some h
    rw [List.cons_append, bodyWithin?_cons hmid, ih hrest, Option.map_map]
    rfl

/-- **A balanced text is read** up to the parenthesis after it. -/
theorem balancedBody?_append (h : depthAfter 0 cs = some 0) (rest : List Char) :
    balancedBody? (cs ++ ')' :: rest) = some cs := by
  rw [balancedBody?, bodyWithin?_append h, bodyWithin?, Option.map_some, List.append_nil]

/-- Only the parenthesis that ends a body goes below its depth. -/
theorem eq_close_of_depthAfter_eq_none {c : Char} (h : depthAfter depth [c] = none) :
    c = ')' ∧ depth = 0 := by
  rw [depthAfter] at h
  split at h
  · cases h
  · split at h
    · rename_i hclose
      split at h
      · rename_i hdepth
        exact ⟨hclose, hdepth⟩
      · cases h
    · cases h

/-- What is read stands before a parenthesis that closes. -/
theorem prefix_of_bodyWithin? {body : List Char} (h : bodyWithin? depth cs = some body) :
    body ++ [')'] <+: cs := by
  induction cs generalizing depth body with
  | nil => cases depth <;> cases h
  | cons c cs ih =>
    cases hinner : depthAfter depth [c] with
    | some inner =>
      rw [bodyWithin?_cons hinner] at h
      obtain ⟨rest, hrest, rfl⟩ := Option.map_eq_some_iff.1 h
      exact List.cons_prefix_cons.2 ⟨rfl, ih hrest⟩
    | none =>
      obtain ⟨rfl, rfl⟩ := eq_close_of_depthAfter_eq_none hinner
      cases h
      exact List.prefix_append [')'] cs

/-- **What is read** closes all that was open. -/
theorem depthAfter_of_bodyWithin? {body : List Char} (h : bodyWithin? depth cs = some body) :
    depthAfter depth body = some 0 := by
  induction cs generalizing depth body with
  | nil => cases depth <;> cases h
  | cons c cs ih =>
    cases hinner : depthAfter depth [c] with
    | some inner =>
      rw [bodyWithin?_cons hinner] at h
      obtain ⟨rest, hrest, rfl⟩ := Option.map_eq_some_iff.1 h
      rw [← List.singleton_append, depthAfter_append, hinner]
      exact ih hrest
    | none =>
      obtain ⟨rfl, rfl⟩ := eq_close_of_depthAfter_eq_none hinner
      cases h
      rfl

/-! ## The pieces between outer commas -/

theorem piecesWithin_ne_nil (depth : Nat) (cs : List Char) : piecesWithin depth cs ≠ [] := by
  cases cs with
  | nil => exact List.cons_ne_nil _ _
  | cons c cs =>
    rw [piecesWithin]
    split
    · exact List.cons_ne_nil _ _
    · dsimp only
      split <;> exact List.cons_ne_nil _ _

theorem piecesWithin_comma (cs : List Char) :
    piecesWithin 0 (',' :: cs) = [] :: piecesWithin 0 cs := rfl

/-- A character other than an outer comma goes to the first piece. -/
theorem piecesWithin_cons {c : Char} (hcomma : c = ',' → depth ≠ 0) {inner : Nat}
    (h : depthAfter depth [c] = some inner) (cs : List Char) :
    piecesWithin depth (c :: cs) = (piecesWithin inner cs).modifyHead (c :: ·) := by
  have houter : ¬ (c = ',' ∧ depth = 0) := fun ⟨hc, hdepth⟩ => hcomma hc hdepth
  obtain ⟨piece, pieces, hpieces⟩ := List.exists_cons_of_ne_nil (piecesWithin_ne_nil inner cs)
  rw [piecesWithin, if_neg houter, depth_eq_of_depthAfter h]
  dsimp only
  rw [hpieces]
  rfl

/-- **A text with its commas inside** goes to the first piece. -/
theorem piecesWithin_append {inner : Nat} (h : depthAfter depth cs = some inner)
    (hcommas : CommasInside depth cs) (rest : List Char) :
    piecesWithin depth (cs ++ rest) = (piecesWithin inner rest).modifyHead (cs ++ ·) := by
  induction cs generalizing depth with
  | nil =>
    obtain rfl := Option.some.inj h
    obtain ⟨piece, pieces, hpieces⟩ := List.exists_cons_of_ne_nil (piecesWithin_ne_nil depth rest)
    rw [List.nil_append, hpieces]
    rfl
  | cons c cs ih =>
    obtain ⟨mid, hmid, hrest⟩ := depthAfter_cons_eq_some h
    obtain ⟨hcomma, hinside⟩ := commasInside_cons.1 hcommas
    rw [List.cons_append, piecesWithin_cons hcomma hmid, ih hrest (hinside mid hmid),
      List.modifyHead_modifyHead]
    rfl

/-- **Nested texts are the pieces of their join.** -/
theorem piecesWithin_joined {pieces : List (List Char)} (hne : pieces ≠ [])
    (h : ∀ piece ∈ pieces, NestedFrom 0 piece) : piecesWithin 0 (Text.joined [','] pieces) = pieces := by
  induction pieces with
  | nil => exact absurd rfl hne
  | cons piece pieces ih =>
    obtain ⟨hbalanced, hcommas⟩ := h piece List.mem_cons_self
    have hpieces := fun other hother => h other (List.mem_cons_of_mem _ hother)
    cases pieces with
    | nil =>
      rw [Text.joined_singleton, ← List.append_nil piece, piecesWithin_append hbalanced hcommas]
      rfl
    | cons next pieces =>
      rw [Text.joined_cons_cons, List.singleton_append, piecesWithin_append hbalanced hcommas,
        piecesWithin_comma, ih (List.cons_ne_nil _ _) hpieces, List.modifyHead_cons, List.append_nil]

/-- **The pieces of a balanced text are nested**, the first of them from the depth it starts at. -/
theorem nestedFrom_piecesWithin (h : depthAfter depth cs = some 0) :
    ∃ piece pieces, piecesWithin depth cs = piece :: pieces ∧ NestedFrom depth piece ∧
      ∀ other ∈ pieces, NestedFrom 0 other := by
  induction cs generalizing depth with
  | nil =>
    obtain rfl := Option.some.inj h
    exact ⟨[], [], rfl, .of_flat flat_nil, fun _ hother => absurd hother List.not_mem_nil⟩
  | cons c cs ih =>
    obtain ⟨inner, hinner, hrest⟩ := depthAfter_cons_eq_some h
    obtain ⟨piece, pieces, hpieces, hpiece, hothers⟩ := ih hrest
    by_cases hcomma : c = ',' ∧ depth = 0
    · obtain ⟨rfl, rfl⟩ := hcomma
      obtain rfl : 0 = inner := Option.some.inj hinner
      refine ⟨[], piece :: pieces, by rw [piecesWithin_comma, hpieces], .of_flat flat_nil, ?_⟩
      exact List.forall_mem_cons.2 ⟨hpiece, hothers⟩
    · have hinside : c = ',' → depth ≠ 0 := fun hc hdepth => hcomma ⟨hc, hdepth⟩
      refine ⟨c :: piece, pieces, by rw [piecesWithin_cons hinside hinner, hpieces]; rfl, ⟨?_, ?_⟩,
        hothers⟩
      · rw [← List.singleton_append, depthAfter_append, hinner]
        exact hpiece.balanced
      · refine commasInside_cons.2 ⟨hinside, fun other hother => ?_⟩
        obtain rfl : inner = other := Option.some.inj (hinner.symm.trans hother)
        exact hpiece.commas

/-! ## The parts of a body -/

/-- Balanced texts stay balanced when they are joined. -/
theorem depthAfter_joined {pieces : List (List Char)} (h : ∀ piece ∈ pieces, depthAfter 0 piece = some 0) :
    depthAfter 0 (Text.joined ", ".toList pieces) = some 0 := by
  induction pieces with
  | nil => rfl
  | cons piece pieces ih =>
    have hpiece := h piece List.mem_cons_self
    have hpieces := ih fun other hother => h other (List.mem_cons_of_mem _ hother)
    cases pieces with
    | nil => rwa [Text.joined_singleton]
    | cons next pieces =>
      have hseparator : depthAfter 0 ", ".toList = some 0 := by decide
      rw [Text.joined_cons_cons, depthAfter_append, hpiece, Option.bind_some, depthAfter_append,
        hseparator]
      exact hpieces

/-- **The parts of a body are nested**, trimmed and not empty. -/
theorem nested_of_mem_topLevelParts {body part : List Char} (h : depthAfter 0 body = some 0)
    (hpart : part ∈ topLevelParts body) :
    NestedFrom 0 part ∧ Text.trim part = part ∧ part ≠ [] := by
  obtain ⟨hmem, hne⟩ := List.mem_filter.1 hpart
  obtain ⟨piece, hpiece, rfl⟩ := List.mem_map.1 hmem
  obtain ⟨first, pieces, hpieces, hfirst, hothers⟩ := nestedFrom_piecesWithin h
  rw [hpieces] at hpiece
  refine ⟨nestedFrom_trim.2 (List.forall_mem_cons.2 ⟨hfirst, hothers⟩ piece hpiece),
    Text.trim_trim piece, fun hnil => ?_⟩
  rw [hnil] at hne
  cases hne

/-- **Nested texts that are not blank are the parts of their join.** -/
theorem topLevelParts_joined {parts : List (List Char)} (hne : parts ≠ [])
    (h : ∀ part ∈ parts, NestedFrom 0 part ∧ Text.trim part ≠ []) :
    topLevelParts (Text.joined ", ".toList parts) = parts.map Text.trim := by
  obtain ⟨part, parts, rfl⟩ := List.exists_cons_of_ne_nil hne
  have hjoin : ∀ part parts, Text.joined ", ".toList (part :: parts)
      = Text.joined [','] (part :: parts.map (' ' :: ·)) := by
    intro part parts
    induction parts generalizing part with
    | nil => rfl
    | cons next parts ih =>
      have hspaced : ", ".toList ++ Text.joined ", ".toList (next :: parts)
          = [','] ++ Text.joined [','] ((' ' :: next) :: parts.map (' ' :: ·)) := by
        rw [ih]
        cases parts <;> rfl
      rw [List.map_cons, Text.joined_cons_cons, Text.joined_cons_cons]
      exact congrArg (part ++ ·) hspaced
  have hnested : ∀ piece ∈ part :: parts.map (' ' :: ·), NestedFrom 0 piece := by
    rw [List.forall_mem_cons, List.forall_mem_map]
    refine ⟨(h part List.mem_cons_self).1, fun other hother => ?_⟩
    have hspace : Flat [' '] := flat_of_isBlank (List.forall_mem_singleton.2 (by decide))
    exact (nestedFrom_flat_append hspace).2 (h other (List.mem_cons_of_mem _ hother)).1
  have htrim : (part :: parts.map (' ' :: ·)).map Text.trim = (part :: parts).map Text.trim := by
    rw [List.map_cons, List.map_map]
    rfl
  rw [topLevelParts, hjoin, piecesWithin_joined (List.cons_ne_nil _ _) hnested, htrim,
    List.filter_eq_self, List.forall_mem_map]
  intro other hother
  rw [List.isEmpty_eq_false_iff.2 (h other hother).2]
  rfl

end Gradient

end ScreenLayout
