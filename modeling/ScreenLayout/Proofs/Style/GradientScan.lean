import ScreenLayout.Proofs.Style.GradientOpening
import ScreenLayout.Proofs.Style.GradientParts

/-!
# Proofs/Style/GradientScan — parentheses counted and commas outside them

Nesting is a matter of counting: a text is balanced when none of its fronts closes more parentheses
than it opens, and the whole as many; a comma is an outer one when as many are closed as opened before
it.  The search for the closing parenthesis and the cut at the outer commas keep a depth each.  Both
are run here with a depth that may not fall below zero, and come to the same.

* `Gradient.Balanced`, `Gradient.depthAfter_eq_some_iff` — depths and counts.
* `Gradient.searchFrom?_succ` — the depth of the search stays above zero.
* `Gradient.outerPieces` — the pieces between outer commas, by their places;
  `Gradient.cutFrom?_append` — the cut makes these pieces.
* `Gradient.balancedBody?_eq_some_iff` — the body of an open parenthesis.
* `Gradient.scanning_exact` — that, the parts of a body, and where a gradient begins.
-/

namespace ScreenLayout

namespace Gradient

variable {depth last : Nat} {cs ds body piece : List Char} {pieces : List (List Char)}

/-! ## Balanced texts -/

/-- **A balanced text**: none of its fronts closes more parentheses than it opens, and the whole closes
as many. -/
structure Balanced (cs : List Char) : Prop where
  front_le : ∀ front, front <+: cs → front.count ')' ≤ front.count '('
  count_eq : cs.count ')' = cs.count '('

theorem forall_prefix_cons_iff {c : Char} {p : List Char → Prop} :
    (∀ front, front <+: c :: cs → p front) ↔ p [] ∧ ∀ front, front <+: cs → p (c :: front) := by
  constructor
  · intro h
    exact ⟨h [] List.nil_prefix, fun front hfront => h _ (List.cons_prefix_cons.2 ⟨rfl, hfront⟩)⟩
  · rintro ⟨hnil, hcons⟩ front hfront
    rcases List.prefix_cons_iff.1 hfront with rfl | ⟨tail, rfl, htail⟩
    · exact hnil
    · exact hcons tail htail

/-- A character moves the depth by what it opens and closes. -/
theorem count_of_depthAfter {c : Char} {inner : Nat} (h : depthAfter depth [c] = some inner) :
    depth + [c].count '(' = inner + [c].count ')' := by
  have hinner := depth_eq_of_depthAfter h
  by_cases hopen : c = '('
  · subst hopen
    exact hinner
  · rw [if_neg hopen] at hinner
    rw [List.count_singleton, beq_eq_false_iff_ne.2 hopen, if_neg Bool.false_ne_true, Nat.add_zero]
    by_cases hclose : c = ')'
    · subst hclose
      cases depth with
      | zero => cases h
      | succ depth => exact congrArg (· + 1) hinner
    · rw [if_neg hclose] at hinner
      rw [List.count_singleton, beq_eq_false_iff_ne.2 hclose, if_neg Bool.false_ne_true, Nat.add_zero]
      exact hinner

/-- **The depth after a text is counted**: what was open, and what the text opens and does not
close. -/
theorem depthAfter_eq_some_iff : depthAfter depth cs = some last ↔
    (∀ front, front <+: cs → front.count ')' ≤ depth + front.count '(') ∧
      depth + cs.count '(' = last + cs.count ')' := by
  induction cs generalizing depth with
  | nil =>
    rw [depthAfter, Option.some.injEq, List.count_nil, List.count_nil, Nat.add_zero, Nat.add_zero]
    refine ⟨fun h => ⟨fun front hfront => ?_, h⟩, And.right⟩
    rw [List.prefix_nil.1 hfront]
    exact Nat.zero_le _
  | cons c cs ih =>
    have hcount : ∀ x ds, (c :: ds).count x = [c].count x + ds.count x := fun x ds => by
      rw [← List.singleton_append, List.count_append]
    have hcons : depthAfter depth (c :: cs) = (depthAfter depth [c]).bind (depthAfter · cs) :=
      depthAfter_append depth [c] cs
    rw [hcons, forall_prefix_cons_iff]
    cases hinner : depthAfter depth [c] with
    | none =>
      obtain ⟨rfl, rfl⟩ := eq_close_of_depthAfter_eq_none hinner
      exact iff_of_false (Option.some_ne_none last).symm fun h =>
        absurd (h.1.2 [] List.nil_prefix) (by decide)
    | some inner =>
      have hstep := count_of_depthAfter hinner
      rw [Option.bind_some, ih, hcount '(' cs, hcount ')' cs]
      constructor
      · rintro ⟨hfront, htotal⟩
        refine ⟨⟨Nat.zero_le _, fun front hprefix => ?_⟩, by omega⟩
        have hle := hfront front hprefix
        rw [hcount ')' front, hcount '(' front]
        omega
      · rintro ⟨⟨-, hfront⟩, htotal⟩
        refine ⟨fun front hprefix => ?_, by omega⟩
        have hle := hfront front hprefix
        rw [hcount ')' front, hcount '(' front] at hle
        omega

theorem balanced_iff : Balanced cs ↔ depthAfter 0 cs = some 0 := by
  rw [depthAfter_eq_some_iff]
  simp only [Nat.zero_add]
  exact ⟨fun h => ⟨h.front_le, h.count_eq.symm⟩, fun ⟨hfront, hcount⟩ => ⟨hfront, hcount.symm⟩⟩

theorem depthAfter_succ (h : depthAfter depth cs = some last) :
    depthAfter (depth + 1) cs = some (last + 1) := by
  obtain ⟨hfront, hcount⟩ := depthAfter_eq_some_iff.1 h
  refine depthAfter_eq_some_iff.2 ⟨fun front hprefix => ?_, by omega⟩
  have hle := hfront front hprefix
  omega

/-- **The search for the closing parenthesis as it runs**: `depth` parentheses are open, and `passed`
was read.  It fails where the depth would fall below zero. -/
def searchFrom? : (depth : Nat) → (passed : List Char) → List Char → Option (Option (List Char))
  | _, _, [] => some none
  | depth, passed, c :: cs =>
    (depthAfter depth [c]).bind fun inner =>
      if c = ')' ∧ inner = 0 then some (some passed) else searchFrom? inner (passed ++ [c]) cs

/-- **The depth stays above zero** up to the parenthesis that ends the search. -/
theorem searchFrom?_succ (depth : Nat) (passed cs : List Char) :
    searchFrom? (depth + 1) passed cs = some ((bodyWithin? depth cs).map (passed ++ ·)) := by
  induction cs generalizing depth passed with
  | nil => cases depth <;> rfl
  | cons c cs ih =>
    rw [searchFrom?]
    cases hinner : depthAfter depth [c] with
    | some inner =>
      have hopen : ¬ (c = ')' ∧ inner + 1 = 0) := fun h => absurd h.2 (Nat.succ_ne_zero inner)
      rw [depthAfter_succ hinner, Option.bind_some, if_neg hopen, ih, bodyWithin?_cons hinner,
        Option.map_map]
      simp only [Function.comp_def, List.append_assoc, List.singleton_append]
    | none =>
      obtain ⟨rfl, rfl⟩ := eq_close_of_depthAfter_eq_none hinner
      rw [bodyWithin?, Option.map_some, List.append_nil]
      rfl

/-! ## Commas -/

/-- **A comma outside the parentheses**: before it as many are closed as opened. -/
def OuterComma (cs : List Char) (i : Nat) : Prop :=
  cs[i]? = some ',' ∧ (cs.take i).count ')' = (cs.take i).count '('

instance (cs : List Char) (i : Nat) : Decidable (OuterComma cs i) :=
  inferInstanceAs (Decidable (_ ∧ _))

theorem commasInside_iff (h : Balanced cs) : CommasInside 0 cs ↔ ∀ i, ¬ OuterComma cs i := by
  have hdepth : ∀ i, depthAfter 0 (cs.take i) = some 0 ↔
      (cs.take i).count ')' = (cs.take i).count '(' := by
    intro i
    rw [← balanced_iff]
    exact ⟨fun h => h.count_eq, fun hcount =>
      ⟨fun front hfront => h.front_le front (hfront.trans (List.take_prefix i cs)), hcount⟩⟩
  constructor
  · rintro hinside i ⟨hcomma, hcount⟩
    exact hinside i (List.getElem?_eq_some_iff.1 hcomma).1 hcomma ((hdepth i).2 hcount)
  · intro houter i _ hcomma hzero
    exact houter i ⟨hcomma, (hdepth i).1 hzero⟩

theorem nestedFrom_iff : NestedFrom 0 cs ↔ Balanced cs ∧ ∀ i, ¬ OuterComma cs i := by
  constructor
  · rintro ⟨hbalanced, hcommas⟩
    have h := balanced_iff.2 hbalanced
    exact ⟨h, (commasInside_iff h).1 hcommas⟩
  · rintro ⟨hbalanced, hcommas⟩
    exact ⟨balanced_iff.1 hbalanced, (commasInside_iff hbalanced).2 hcommas⟩

/-- The places of the outer commas of a text. -/
def outerCommas (cs : List Char) : List Nat := (List.range cs.length).filter (OuterComma cs ·)

/-- **The pieces between the outer commas** of a text: each runs from behind one to the next. -/
def outerPieces (cs : List Char) : List (List Char) :=
  List.zipWith (fun start stop => (cs.take stop).drop start) (0 :: (outerCommas cs).map (· + 1))
    (outerCommas cs ++ [cs.length])

theorem outerCommas_of_nested (h : ∀ i, ¬ OuterComma cs i) : outerCommas cs = [] :=
  List.filter_eq_nil_iff.2 fun i _ => by simpa using h i

theorem outerPieces_of_nested (h : ∀ i, ¬ OuterComma cs i) : outerPieces cs = [cs] := by
  rw [outerPieces, outerCommas_of_nested h]
  simp

/-- Behind a nested text and a comma, outer commas are those of what follows. -/
theorem outerComma_append_cons_iff (h : Balanced piece) (rest : List Char) (i : Nat) :
    OuterComma (piece ++ ',' :: rest) (piece.length + 1 + i) ↔ OuterComma rest i := by
  have hget : (piece ++ ',' :: rest)[piece.length + 1 + i]? = rest[i]? := by
    rw [Nat.add_assoc, List.getElem?_append_right (Nat.le_add_right _ _), Nat.add_sub_cancel_left,
      Nat.add_comm 1 i, List.getElem?_cons_succ]
  have htake : (piece ++ ',' :: rest).take (piece.length + 1 + i) = piece ++ ',' :: rest.take i := by
    rw [Nat.add_assoc, List.take_length_add_append, Nat.add_comm 1 i, List.take_succ_cons]
  have hcount : ∀ x, x ≠ ',' →
      (piece ++ ',' :: rest.take i).count x = piece.count x + (rest.take i).count x := by
    intro x hx
    rw [List.count_append, List.count_cons_of_ne hx.symm]
  rw [OuterComma, OuterComma, hget, htake, hcount ')' (by decide), hcount '(' (by decide), h.count_eq,
    Nat.add_left_cancel_iff]

theorem outerCommas_append_cons (h : NestedFrom 0 piece) (rest : List Char) :
    outerCommas (piece ++ ',' :: rest)
      = piece.length :: (outerCommas rest).map (piece.length + 1 + ·) := by
  obtain ⟨hbalanced, hinside⟩ := nestedFrom_iff.1 h
  have hfront : (List.range piece.length).filter (OuterComma (piece ++ ',' :: rest) ·) = [] := by
    refine List.filter_eq_nil_iff.2 fun i hi => ?_
    have hlt := List.mem_range.1 hi
    rw [decide_eq_true_eq]
    rintro ⟨hcomma, hcount⟩
    rw [List.getElem?_append_left hlt] at hcomma
    rw [List.take_append_of_le_length (Nat.le_of_lt hlt)] at hcount
    exact hinside i ⟨hcomma, hcount⟩
  have hcomma : OuterComma (piece ++ ',' :: rest) piece.length := by
    refine ⟨List.getElem?_append_right (Nat.le_refl _) |>.trans (by simp), ?_⟩
    rw [List.take_left]
    exact hbalanced.count_eq
  have hback : (List.range rest.length).filter
      (fun i => OuterComma (piece ++ ',' :: rest) (piece.length + 1 + i)) = outerCommas rest :=
    List.filter_congr fun i _ => by rw [decide_eq_decide, outerComma_append_cons_iff hbalanced]
  have hlength : (piece ++ ',' :: rest).length = piece.length + 1 + rest.length := by
    rw [List.length_append, List.length_cons]
    omega
  rw [outerCommas, hlength, List.range_add, List.range_succ, List.filter_append, List.filter_append,
    hfront, List.filter_map, List.filter_singleton, decide_eq_true hcomma]
  exact congrArg (fun later => piece.length :: later.map (piece.length + 1 + ·)) hback

theorem outerPieces_append_cons (h : NestedFrom 0 piece) (rest : List Char) :
    outerPieces (piece ++ ',' :: rest) = piece :: outerPieces rest := by
  have hfirst : ((piece ++ ',' :: rest).take piece.length).drop 0 = piece := List.take_left
  have hother : ∀ start stop, ((piece ++ ',' :: rest).take (piece.length + 1 + stop)).drop
      (piece.length + 1 + start) = (rest.take stop).drop start := by
    intro start stop
    rw [Nat.add_assoc, Nat.add_assoc, List.take_length_add_append, Nat.add_comm 1, Nat.add_comm 1,
      List.take_succ_cons, List.drop_length_add_append, List.drop_succ_cons]
  have hlength : (piece ++ ',' :: rest).length = piece.length + 1 + rest.length := by
    rw [List.length_append, List.length_cons]
    omega
  have hstarts : (piece.length :: (outerCommas rest).map (piece.length + 1 + ·)).map (· + 1)
      = (0 :: (outerCommas rest).map (· + 1)).map (piece.length + 1 + ·) := by
    rw [List.map_cons, List.map_cons, List.map_map, List.map_map]
    rfl
  have hstops : (outerCommas rest).map (piece.length + 1 + ·) ++ [piece.length + 1 + rest.length]
      = (outerCommas rest ++ [rest.length]).map (piece.length + 1 + ·) := by
    rw [List.map_append, List.map_singleton]
  rw [outerPieces, outerCommas_append_cons h, hlength, List.cons_append, List.zipWith_cons_cons,
    hfirst, hstarts, hstops, List.zipWith_map]
  simp only [hother]
  rfl

/-- **Nested texts are the outer pieces of their join.** -/
theorem outerPieces_joined (hne : pieces ≠ []) (h : ∀ piece ∈ pieces, NestedFrom 0 piece) :
    outerPieces (Text.joined [','] pieces) = pieces := by
  induction pieces with
  | nil => exact absurd rfl hne
  | cons piece pieces ih =>
    obtain ⟨hpiece, hpieces⟩ := List.forall_mem_cons.1 h
    cases pieces with
    | nil =>
      rw [Text.joined_singleton]
      exact outerPieces_of_nested (nestedFrom_iff.1 hpiece).2
    | cons next pieces =>
      rw [Text.joined_cons_cons, List.singleton_append, outerPieces_append_cons hpiece,
        ih (List.cons_ne_nil _ _) hpieces]

/-- **The pieces with commas between them** are the text. -/
theorem joined_piecesWithin (depth : Nat) (cs : List Char) :
    Text.joined [','] (piecesWithin depth cs) = cs := by
  induction cs generalizing depth with
  | nil => rfl
  | cons c cs ih =>
    by_cases houter : c = ',' ∧ depth = 0
    · obtain ⟨rfl, rfl⟩ := houter
      obtain ⟨piece, pieces, hpieces⟩ := List.exists_cons_of_ne_nil (piecesWithin_ne_nil 0 cs)
      have htail := ih 0
      rw [piecesWithin_comma, hpieces, Text.joined_cons_cons, ← hpieces]
      exact congrArg (',' :: ·) htail
    · rw [piecesWithin, if_neg houter]
      dsimp only
      generalize (if c = '(' then depth + 1 else if c = ')' then depth - 1 else depth) = deeper
      obtain ⟨piece, pieces, hpieces⟩ := List.exists_cons_of_ne_nil (piecesWithin_ne_nil deeper cs)
      have htail := ih deeper
      rw [hpieces] at htail ⊢
      have hhead : Text.joined [','] ((c :: piece) :: pieces)
          = c :: Text.joined [','] (piece :: pieces) := by
        cases pieces <;> rfl
      rw [hhead, htail]

/-- **The cut of a balanced body** is the one at its outer commas. -/
theorem piecesWithin_eq_outerPieces (h : Balanced body) : piecesWithin 0 body = outerPieces body := by
  obtain ⟨piece, pieces, hpieces, hpiece, hothers⟩ := nestedFrom_piecesWithin (balanced_iff.1 h)
  have hnested : ∀ other ∈ piecesWithin 0 body, NestedFrom 0 other := by
    rw [hpieces]
    exact List.forall_mem_cons.2 ⟨hpiece, hothers⟩
  have hjoin := outerPieces_joined (piecesWithin_ne_nil 0 body) hnested
  rw [joined_piecesWithin] at hjoin
  exact hjoin.symm

/-- **The cut at the outer commas as it runs**: at place `i` of the body, with the piece begun at
`start`.  It fails where a parenthesis is closed and none is open. -/
def cutFrom? (body : List Char) : (depth start i : Nat) → List Char → Option (List (List Char))
  | _, start, i, [] => some [(body.take i).drop start]
  | depth, start, i, c :: cs =>
    if c = ',' ∧ depth = 0 then
      (cutFrom? body 0 (i + 1) (i + 1) cs).map ((body.take i).drop start :: ·)
    else (depthAfter depth [c]).bind fun inner => cutFrom? body inner start (i + 1) cs

/-- **The cut keeps the depth**: what was cut off stands before `start`, and the piece begun from there
to `i`. -/
theorem cutFrom?_append {front piece cs : List Char} (hbody : body = front ++ (piece ++ cs))
    (h : depthAfter depth cs = some 0) :
    cutFrom? body depth front.length (front.length + piece.length) cs
      = some ((piecesWithin depth cs).modifyHead (piece ++ ·)) := by
  have hpiece : ∀ {front piece cs : List Char}, body = front ++ (piece ++ cs) →
      (body.take (front.length + piece.length)).drop front.length = piece := by
    rintro front piece cs rfl
    rw [List.take_length_add_append, List.take_left, List.drop_left]
  induction cs generalizing depth front piece with
  | nil =>
    rw [cutFrom?, hpiece hbody, piecesWithin, List.modifyHead_cons, List.append_nil]
  | cons c cs ih =>
    obtain ⟨inner, hinner, hrest⟩ := depthAfter_cons_eq_some h
    by_cases houter : c = ',' ∧ depth = 0
    · obtain ⟨rfl, rfl⟩ := houter
      obtain rfl : 0 = inner := Option.some.inj hinner
      have hlater : body = (front ++ piece ++ [',']) ++ ([] ++ cs) := by
        rw [hbody]
        simp only [List.append_assoc, List.singleton_append, List.nil_append]
      have hplace : (front ++ piece ++ [',']).length = front.length + piece.length + 1 := by
        rw [List.length_append, List.length_append, List.length_singleton]
      have hnext := ih hlater hrest
      rw [hplace, List.length_nil, Nat.add_zero] at hnext
      obtain ⟨first, others, hpieces⟩ := List.exists_cons_of_ne_nil (piecesWithin_ne_nil 0 cs)
      rw [cutFrom?, if_pos ⟨rfl, rfl⟩, hnext, hpiece hbody, piecesWithin_comma, hpieces,
        List.modifyHead_cons, List.modifyHead_cons, List.nil_append, List.append_nil]
      rfl
    · have hcomma : c = ',' → depth ≠ 0 := fun hc hdepth => houter ⟨hc, hdepth⟩
      have hlonger : body = front ++ ((piece ++ [c]) ++ cs) := by
        rw [hbody, List.append_assoc, List.singleton_append]
      have hnext := ih hlonger hrest
      rw [List.length_append, List.length_singleton, ← Nat.add_assoc] at hnext
      rw [cutFrom?, if_neg houter, hinner, Option.bind_some, piecesWithin_cons hcomma hinner, hnext,
        List.modifyHead_modifyHead]
      simp only [Function.comp_def, List.append_assoc, List.singleton_append]

/-- **The depth never falls below zero** in a balanced body, so the cut is the one at its outer
commas. -/
theorem cutFrom?_zero (h : Balanced body) : cutFrom? body 0 0 0 body = some (outerPieces body) := by
  have hwhole : body = [] ++ ([] ++ body) := rfl
  have hcut := cutFrom?_append hwhole (balanced_iff.1 h)
  obtain ⟨piece, pieces, hpieces⟩ := List.exists_cons_of_ne_nil (piecesWithin_ne_nil 0 body)
  rw [hpieces, List.modifyHead_cons, List.nil_append, ← hpieces, piecesWithin_eq_outerPieces h] at hcut
  exact hcut

/-! ## The body up to its parenthesis -/

/-- **The body of a parenthesis that is open**: the balanced text before one that closes it. -/
structure IsBody (body cs : List Char) : Prop where
  closed : body ++ [')'] <+: cs
  balanced : Balanced body

theorem balancedBody?_eq_some_iff : balancedBody? cs = some body ↔ IsBody body cs := by
  constructor
  · intro h
    exact ⟨prefix_of_bodyWithin? h, balanced_iff.2 (depthAfter_of_bodyWithin? h)⟩
  · rintro ⟨⟨rest, rfl⟩, h⟩
    rw [List.append_assoc]
    exact balancedBody?_append (balanced_iff.1 h) rest

theorem IsBody.unique {other : List Char} (h : IsBody body cs) (h' : IsBody other cs) : body = other :=
  Option.some.inj ((balancedBody?_eq_some_iff.2 h).symm.trans (balancedBody?_eq_some_iff.2 h'))

theorem balancedBody?_eq_none_iff : balancedBody? cs = none ↔ ∀ body, ¬ IsBody body cs := by
  rw [Option.eq_none_iff_forall_ne_some]
  exact forall_congr' fun body => not_congr balancedBody?_eq_some_iff

/-- The search starts with one parenthesis open. -/
theorem searchFrom?_one (cs : List Char) : searchFrom? 1 [] cs = some (balancedBody? cs) := by
  rw [searchFrom?_succ, balancedBody?]
  simp

/-! ## Scanning -/

theorem topLevelParts_eq (h : Balanced body) :
    topLevelParts body = ((outerPieces body).map Text.trim).filter (!·.isEmpty) := by
  rw [topLevelParts, piecesWithin_eq_outerPieces h]

/-- **Scanning is exact.**  The body of an open parenthesis is the one balanced text before a
parenthesis that closes it, if there is one, and the depth of the search for it never falls below zero.
Neither does that of the cut of a balanced body: it is cut at its outer commas, and its parts are the
pieces, trimmed and without the blank ones, each balanced and with no outer comma.  The offset found in
the bytes of a text in lower case is where the first opening of the text is. -/
theorem scanning_exact :
    (∀ cs : List Char,
      (∀ body, balancedBody? cs = some body ↔ IsBody body cs) ∧
      (∀ body other, IsBody body cs → IsBody other cs → body = other) ∧
      (balancedBody? cs = none ↔ ∀ body, ¬ IsBody body cs) ∧
      searchFrom? 1 [] cs = some (balancedBody? cs)) ∧
    (∀ body : List Char, Balanced body →
      cutFrom? body 0 0 0 body = some (outerPieces body) ∧
      Text.joined [','] (outerPieces body) = body ∧
      topLevelParts body = ((outerPieces body).map Text.trim).filter (!·.isEmpty) ∧
      ∀ part ∈ topLevelParts body, Balanced part ∧ ∀ i, ¬ OuterComma part i) ∧
    (∀ cs : List Char,
      (∀ offset, FoundAt cs offset ↔ ∃ front spelled rest, OpensAt offset front spelled rest cs) ∧
      (afterOpening? cs = none ↔ ∀ offset, ¬ FoundAt cs offset) ∧
      (afterOpening? cs = none ↔ ∀ front spelled rest, cs = front ++ (spelled ++ rest) →
        ¬ Text.sameAscii spelled opening)) := by
  refine ⟨fun cs => ⟨fun body => balancedBody?_eq_some_iff, fun body other => IsBody.unique,
    balancedBody?_eq_none_iff, searchFrom?_one cs⟩, fun body h => ⟨cutFrom?_zero h, ?_,
    topLevelParts_eq h, fun part hpart => ?_⟩, fun cs => ⟨fun offset => foundAt_iff,
    afterOpening?_eq_none_iff_foundAt, afterOpening?_eq_none_iff⟩⟩
  · rw [← piecesWithin_eq_outerPieces h, joined_piecesWithin]
  · exact nestedFrom_iff.1 (nested_of_mem_topLevelParts (balanced_iff.1 h) hpart).1

/-- A body with nested parentheses, a blank piece and a text after it, and an opening in upper case
behind a character of two bytes. -/
theorem scanning_exact_nested :
    balancedBody? "red, rgb(0, f(1)) 10%, , blue) no-repeat)".toList
      = some "red, rgb(0, f(1)) 10%, , blue".toList
    ∧ cutFrom? "red, rgb(0, f(1)) 10%, , blue".toList 0 0 0 "red, rgb(0, f(1)) 10%, , blue".toList
      = some ["red".toList, " rgb(0, f(1)) 10%".toList, " ".toList, " blue".toList]
    ∧ topLevelParts "red, rgb(0, f(1)) 10%, , blue".toList
      = ["red".toList, "rgb(0, f(1)) 10%".toList, "blue".toList]
    ∧ ∃ front spelled rest, OpensAt 3 front spelled rest "é LINEAR-GRADIENT(red)".toList := by
  obtain ⟨hsearch, hcut, hopen⟩ := scanning_exact
  have hbalanced : Balanced "red, rgb(0, f(1)) 10%, , blue".toList := balanced_iff.2 (by decide)
  obtain ⟨hrun, -, hparts, -⟩ := hcut _ hbalanced
  have hclosed : "red, rgb(0, f(1)) 10%, , blue".toList ++ [')']
      <+: "red, rgb(0, f(1)) 10%, , blue) no-repeat)".toList := by decide
  have hfound : FoundAt "é LINEAR-GRADIENT(red)".toList 3 := ⟨by decide, by decide⟩
  have hpieces : outerPieces "red, rgb(0, f(1)) 10%, , blue".toList
      = ["red".toList, " rgb(0, f(1)) 10%".toList, " ".toList, " blue".toList] := by decide
  refine ⟨((hsearch _).1 _).2 ⟨hclosed, hbalanced⟩, hrun.trans (congrArg some hpieces), ?_,
    ((hopen _).1 3).1 hfound⟩
  rw [hparts, hpieces]
  decide

end Gradient

end ScreenLayout
