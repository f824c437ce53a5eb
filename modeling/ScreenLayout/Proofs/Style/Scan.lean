import ScreenLayout.Proofs.Style.Munch

/-!
# Proofs/Style/Scan — where the tokens of a text stand

The tokens of a text stand one after the other, each the longest match at its place, and between
them are only characters that begin none:

    1px ; solid   ──▸   1px at 0, solid at 6

When a colour function is opened and never closed, the rest of the text is left out with it.

* `Token.read` — the tokens at their places, and where the rest is left out.
* `Token.Reads`, `Token.reads_read` — a reading step by step; all facts about it are by induction on
  the steps.
* `Token.Reads.map_token` — its tokens are those of the text.
* `Token.scan_of_mem_pattern` — a text of a kind is one token.
* `Token.scan_faithful` — the tokens, their places, and what is left out.
-/

namespace ScreenLayout.Token

variable {c : Char} {cs : List Char} {t : Token} {k : TokenKind}

/-! ## Between tokens -/

/-- The characters that part tokens without a trace. -/
def separators : List Char := [' ', '\t', '\n', '\r', '\x0c']

def isSeparator (c : Char) : Bool := separators.contains c

theorem isBlank_of_isSeparator (hc : isSeparator c) : Text.isBlank c := by
  have hall : separators.all Text.isBlank := by decide
  exact List.all_eq_true.1 hall c (List.contains_iff_mem.1 hc)

/-- No token begins with a blank. -/
theorem unmatched_of_isBlank (hc : Text.isBlank c) (cs : List Char) : Unmatched (c :: cs) := by
  intro k x hx h
  have hall : Text.blanks.all (!k.startsWith ·) := by cases k <;> decide
  exact Bool.eq_false_iff.1 (Text.eq_false_of_isBlank hall hc) (startsWith_of_isPrefix hx h).1

/-! ## The first token -/

/-- The longest match is the first token. -/
theorem scan_of_isLongest (h : t.IsLongest cs) (hclosed : ¬ OpensFunction cs) :
    scan cs = t :: scan (cs.drop t.text.length) := by
  obtain ⟨kind, text⟩ := t
  obtain ⟨c, tail, rfl⟩ := List.exists_cons_of_ne_nil (TokenKind.ne_nil_of_mem_pattern h.matched)
  obtain ⟨rest, rfl⟩ := h.at_front
  have hmunch : munch c (tail ++ rest) = .token kind tail := munch_eq_iff.2 ⟨h, hclosed⟩
  rw [List.cons_append, scan_cons, hmunch]
  rfl

/-- A character that begins none is passed over. -/
theorem scan_of_unmatched (h : Unmatched (c :: cs)) : scan (c :: cs) = scan cs := by
  have hmunch : munch c cs = .skip := munch_eq_iff.2 h
  rw [scan_cons, hmunch]

theorem ne_nil_of_opensFunction (h : OpensFunction cs) : cs ≠ [] := by
  obtain ⟨name, -, rest, rfl, -⟩ := h
  exact List.append_ne_nil_of_right_ne_nil name (List.cons_ne_nil '(' rest)

theorem scan_of_opensFunction (h : OpensFunction cs) : scan cs = [] := by
  obtain ⟨c, tail, rfl⟩ := List.exists_cons_of_ne_nil (ne_nil_of_opensFunction h)
  have hmunch : munch c tail = .swallow := munch_eq_iff.2 h
  rw [scan_cons, hmunch]

/-- **A text of a kind is one token.** -/
theorem scan_of_mem_pattern (h : cs ∈ k.pattern) : scan cs = [⟨k, cs⟩] := by
  rw [scan_of_isLongest (isLongest_of_mem_pattern h) (not_opensFunction_of_mem_pattern h),
    List.drop_length, scan_nil]

/-! ## Tokens at their places -/

/-- **A token at its place** in a text. -/
structure Span where
  start : Nat
  token : Token
deriving DecidableEq

/-- The place after it. -/
def Span.stop (s : Span) : Nat := s.start + s.token.text.length

/-- A place is one of its characters'. -/
def Span.Covers (s : Span) (i : Nat) : Prop := s.start ≤ i ∧ i < s.stop

/-- **What is read of a text**: the tokens, and the place from which the rest is left out, if it
is. -/
structure Reading where
  spans : List Span
  swallowed : Option Nat
deriving DecidableEq

/-- A reading after a first token. -/
def Reading.after (s : Span) (r : Reading) : Reading := { r with spans := s :: r.spans }

/-- What is read of a text that stands at `start`, of which the first `passed` characters are
already read. -/
def readFrom : (start passed : Nat) → List Char → Reading
  | _, _, [] => ⟨[], none⟩
  | start, passed + 1, _ :: cs => readFrom (start + 1) passed cs
  | start, 0, c :: cs => match munch c cs with
    | .token kind tail => (readFrom (start + 1) tail.length cs).after ⟨start, ⟨kind, c :: tail⟩⟩
    | .skip => readFrom (start + 1) 0 cs
    | .swallow => ⟨[], some start⟩

/-- **What is read of a text.** -/
def read (cs : List Char) : Reading := readFrom 0 0 cs

/-- **Nothing is left out** for a colour function that is never closed. -/
def Closed (cs : List Char) : Prop := (read cs).swallowed = none

instance (cs : List Char) : Decidable (Closed cs) := inferInstanceAs (Decidable (_ = _))

/-! ## The steps of a reading -/

/-- **A reading from a place on**, step by step. -/
inductive Reads (cs : List Char) : Nat → Reading → Prop
  | done {p : Nat} (hp : cs.length ≤ p) : Reads cs p ⟨[], none⟩
  | token {p : Nat} {t : Token} {r : Reading} (h : t.IsLongest (cs.drop p))
      (hclosed : ¬ OpensFunction (cs.drop p)) (rest : Reads cs (p + t.text.length) r) :
      Reads cs p (r.after ⟨p, t⟩)
  | skip {p : Nat} {r : Reading} (hp : p < cs.length) (h : Unmatched (cs.drop p))
      (rest : Reads cs (p + 1) r) : Reads cs p r
  | swallow {p : Nat} (h : OpensFunction (cs.drop p)) : Reads cs p ⟨[], some p⟩

theorem reads_readFrom {text : List Char} {start : Nat} (passed : Nat) (h : text.drop start = cs) :
    Reads text (start + passed) (readFrom start passed cs) := by
  induction cs generalizing start passed with
  | nil => exact .done (Nat.le_add_right_of_le (List.drop_eq_nil_iff.1 h))
  | cons c cs ih =>
    have hnext : text.drop (start + 1) = cs := by rw [← List.tail_drop, h, List.tail_cons]
    cases passed with
    | succ passed =>
      have hread := ih passed hnext
      rwa [Nat.add_right_comm] at hread
    | zero =>
      have hfits := munch_fits c cs
      rw [readFrom, Nat.add_zero]
      cases hmunch : munch c cs with
      | token kind tail =>
        rw [hmunch] at hfits
        obtain ⟨hlongest, hclosed⟩ := hfits
        rw [← h] at hlongest hclosed
        have hread := ih tail.length hnext
        rw [Nat.add_right_comm, Nat.add_assoc] at hread
        exact .token hlongest hclosed hread
      | skip =>
        rw [hmunch] at hfits
        have hstart : start < text.length := by
          refine Nat.lt_of_not_le fun hle => List.cons_ne_nil c cs ?_
          rw [← h, List.drop_eq_nil_of_le hle]
        exact .skip hstart (h ▸ hfits) (ih 0 hnext)
      | swallow =>
        rw [hmunch] at hfits
        exact .swallow (h ▸ hfits)

theorem reads_read (cs : List Char) : Reads cs 0 (read cs) := reads_readFrom 0 List.drop_zero

namespace Reads

variable {p q i : Nat} {r : Reading} {s : Span}

/-- **The tokens read are those of the text.** -/
theorem map_token (h : Reads cs p r) : r.spans.map Span.token = scan (cs.drop p) := by
  induction h with
  | done hp => rw [List.drop_eq_nil_of_le hp]; rfl
  | token hlongest hclosed _ ih =>
    rw [scan_of_isLongest hlongest hclosed, List.drop_drop, ← ih]
    rfl
  | skip hp hnone _ ih =>
    rw [List.drop_eq_getElem_cons hp] at hnone ⊢
    rw [scan_of_unmatched hnone, ih]
  | swallow hopens => rw [scan_of_opensFunction hopens]; rfl

theorem isLongest (h : Reads cs p r) (hs : s ∈ r.spans) : s.token.IsLongest (cs.drop s.start) := by
  induction h with
  | done _ => cases hs
  | token hlongest _ _ ih =>
    obtain rfl | hs := List.mem_cons.1 hs
    · exact hlongest
    · exact ih hs
  | skip _ _ _ ih => exact ih hs
  | swallow _ => cases hs

theorem not_opensFunction (h : Reads cs p r) (hs : s ∈ r.spans) :
    ¬ OpensFunction (cs.drop s.start) := by
  induction h with
  | done _ => cases hs
  | token _ hclosed _ ih =>
    obtain rfl | hs := List.mem_cons.1 hs
    · exact hclosed
    · exact ih hs
  | skip _ _ _ ih => exact ih hs
  | swallow _ => cases hs

/-- Nothing is read before the place where the reading begins. -/
theorem start_le (h : Reads cs p r) (hs : s ∈ r.spans) : p ≤ s.start := by
  induction h with
  | done _ => cases hs
  | token _ _ _ ih =>
    obtain rfl | hs := List.mem_cons.1 hs
    · exact Nat.le_refl _
    · exact Nat.le_trans (Nat.le_add_right _ _) (ih hs)
  | skip _ _ _ ih => exact Nat.le_of_succ_le (ih hs)
  | swallow _ => cases hs

/-- **No token begins before the one before it ends.** -/
theorem pairwise (h : Reads cs p r) : r.spans.Pairwise fun s t => s.stop ≤ t.start := by
  induction h with
  | done _ => exact .nil
  | token _ _ rest ih => exact List.pairwise_cons.2 ⟨fun _ hs => rest.start_le hs, ih⟩
  | skip _ _ _ ih => exact ih
  | swallow _ => exact .nil

/-- **What is left out** begins no token, or comes after a colour function that is never closed. -/
theorem left_out (h : Reads cs p r) (hi : p ≤ i) (hlength : i < cs.length) :
    (∃ s ∈ r.spans, s.Covers i) ∨ Unmatched (cs.drop i) ∨ ∃ q ≤ i, r.swallowed = some q := by
  induction h with
  | done hp => exact absurd (Nat.lt_of_lt_of_le hlength hp) (Nat.not_lt.2 hi)
  | @token p t r hlongest _ _ ih =>
    obtain hlt | hle := Nat.lt_or_ge i (p + t.text.length)
    · exact .inl ⟨⟨p, t⟩, List.mem_cons_self, hi, hlt⟩
    · obtain ⟨s, hs, hcovers⟩ | hrest := ih hle
      · exact .inl ⟨s, List.mem_cons_of_mem _ hs, hcovers⟩
      · exact .inr hrest
  | skip _ hnone _ ih =>
    obtain rfl | hlt := Nat.eq_or_lt_of_le hi
    · exact .inr (.inl hnone)
    · exact ih hlt
  | swallow _ => exact .inr (.inr ⟨_, hi, rfl⟩)

/-- **The rest is left out from a colour function on** that is never closed, after all tokens. -/
theorem swallowed (h : Reads cs p r) (hq : r.swallowed = some q) :
    p ≤ q ∧ OpensFunction (cs.drop q) ∧ ∀ s ∈ r.spans, s.stop ≤ q := by
  induction h with
  | done _ => cases hq
  | token _ _ _ ih =>
    obtain ⟨hle, hopens, hstop⟩ := ih hq
    exact ⟨Nat.le_of_add_right_le hle, hopens, List.forall_mem_cons.2 ⟨hle, hstop⟩⟩
  | skip _ _ _ ih =>
    obtain ⟨hle, hrest⟩ := ih hq
    exact ⟨Nat.le_of_succ_le hle, hrest⟩
  | swallow hopens =>
    obtain rfl := Option.some.inj hq
    exact ⟨Nat.le_refl _, hopens, nofun⟩

end Reads

/-! ## The text as a whole -/

theorem lt_stop_of_mem_spans {s : Span} (hs : s ∈ (read cs).spans) : s.start < s.stop := by
  have hlongest := (reads_read cs).isLongest hs
  exact Nat.lt_add_of_pos_right
    (List.length_pos_iff.2 (TokenKind.ne_nil_of_mem_pattern hlongest.matched))

theorem stop_le_of_mem_spans {s : Span} (hs : s ∈ (read cs).spans) : s.stop ≤ cs.length := by
  have hfront := ((reads_read cs).isLongest hs).at_front.length_le
  have hlt := lt_stop_of_mem_spans hs
  rw [List.length_drop] at hfront
  unfold Span.stop at hlt ⊢
  omega

/-- The text of a token stands at its place. -/
theorem text_of_mem_spans {s : Span} (hs : s ∈ (read cs).spans) :
    s.token.text = cs.extract s.start s.stop := by
  rw [List.extract_eq_take_drop, Span.stop, Nat.add_sub_cancel_left]
  exact List.prefix_iff_eq_take.1 ((reads_read cs).isLongest hs).at_front

/-- **A text is closed** when it opens no colour function in vain where a token may begin. -/
theorem closed_iff : Closed cs ↔
    ∀ q, (∀ s ∈ (read cs).spans, s.Covers q → s.start = q) → ¬ OpensFunction (cs.drop q) := by
  have hread := reads_read cs
  refine ⟨fun hclosed q hq hopens => ?_, fun hall => ?_⟩
  · have hlength : q < cs.length := Nat.lt_of_not_le fun hle =>
      ne_nil_of_opensFunction hopens (List.drop_eq_nil_of_le hle)
    obtain ⟨s, hs, hcovers⟩ | hnone | ⟨_, -, hswallowed⟩ := hread.left_out (Nat.zero_le q) hlength
    · exact hread.not_opensFunction hs (hq s hs hcovers ▸ hopens)
    · exact hopens.not_unmatched hnone
    · cases hclosed.symm.trans hswallowed
  · by_contra hne
    obtain ⟨q, hq⟩ := Option.ne_none_iff_exists'.1 hne
    obtain ⟨-, hopens, hstop⟩ := hread.swallowed hq
    exact hall q (fun s hs hcovers => absurd hcovers.2 (Nat.not_lt.2 (hstop s hs))) hopens

/-- **The tokens of a text are read faithfully.**  They stand in it one after the other, none empty,
each the longest match of any kind at its place and by itself the one token of its text.  Whatever
is in none of them begins no token, as a separator does not, or is left out with a colour function
that is opened where a token may begin and never closed. -/
theorem scan_faithful (cs : List Char) :
    (read cs).spans.map Span.token = scan cs
      ∧ (read cs).spans.Pairwise (fun s t => s.stop ≤ t.start)
      ∧ (∀ s ∈ (read cs).spans, s.start < s.stop ∧ s.stop ≤ cs.length
          ∧ s.token.text = cs.extract s.start s.stop
          ∧ s.token.IsLongest (cs.drop s.start)
          ∧ scan s.token.text = [s.token])
      ∧ (∀ i < cs.length, (∀ s ∈ (read cs).spans, ¬ s.Covers i) →
          Unmatched (cs.drop i) ∨ ∃ q ≤ i, (read cs).swallowed = some q)
      ∧ (∀ c, isSeparator c → ∀ rest, Unmatched (c :: rest))
      ∧ ∀ q, (read cs).swallowed = some q → OpensFunction (cs.drop q)
          ∧ (∀ s ∈ (read cs).spans, s.stop ≤ q)
          ∧ ∀ i < q, (∃ s ∈ (read cs).spans, s.Covers i) ∨ Unmatched (cs.drop i) := by
  have hread := reads_read cs
  refine ⟨hread.map_token, hread.pairwise, fun s hs => ?_, fun i hi hfree => ?_,
    fun _ hc => unmatched_of_isBlank (isBlank_of_isSeparator hc), fun q hq => ?_⟩
  · have hlongest := hread.isLongest hs
    exact ⟨lt_stop_of_mem_spans hs, stop_le_of_mem_spans hs, text_of_mem_spans hs, hlongest,
      scan_of_mem_pattern hlongest.matched⟩
  · obtain ⟨s, hs, hcovers⟩ | hrest := hread.left_out (Nat.zero_le i) hi
    · exact absurd hcovers (hfree s hs)
    · exact hrest
  · obtain ⟨-, hopens, hstop⟩ := hread.swallowed hq
    refine ⟨hopens, hstop, fun i hi => ?_⟩
    have hlength : q < cs.length := Nat.lt_of_not_le fun hle =>
      ne_nil_of_opensFunction hopens (List.drop_eq_nil_of_le hle)
    obtain hcovered | hnone | ⟨q', hle, hq'⟩ := hread.left_out (Nat.zero_le i) (hi.trans hlength)
    · exact .inl hcovered
    · exact .inr hnone
    · obtain rfl : q = q' := Option.some.inj (hq.symm.trans hq')
      exact absurd hi (Nat.not_lt.2 hle)

/-- The colour function is not closed, so nothing is read from its place on. -/
example : read "1px;rgb(0 0".toList = ⟨[⟨0, ⟨.dimension, "1px".toList⟩⟩], some 4⟩ := by
  decide +kernel

end ScreenLayout.Token
