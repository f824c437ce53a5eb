import ScreenLayout.Proofs.Text.Blank

/-!
# Proofs/Text/Squeeze — runs of blanks made one space

Squeezing makes each run of blanks one space and leaves every other character.  So it does not matter
whether a text is squeezed before or after it is turned round, or cut where a class of characters
ends, if the class has all blanks or none.  The words of a text with one space between each two are
the trimmed text, squeezed.

* `Text.squeeze_takeWhile`, `Text.squeeze_dropWhile`, `Text.squeeze_reverse` — squeezing and cutting.
* `Text.squeeze_trim`, `Text.squeeze_dropEndWhile` — squeezing and trimming.
* `Text.joined_words` — the words of a text with one space between each two.
-/

namespace ScreenLayout.Text

/-- **A text with each run of blanks made one space.** -/
def squeeze : List Char → List Char
  | [] => []
  | c :: cs =>
    if isBlank c then if cs.head?.any isBlank then squeeze cs else ' ' :: squeeze cs
    else c :: squeeze cs

variable {p : Char → Bool} {c d : Char} {cs : List Char}

/-- A character that is no blank stays, whatever follows it. -/
theorem squeeze_cons_of_free (hc : isBlank c = false) (cs : List Char) :
    squeeze (c :: cs) = c :: squeeze cs := by
  rw [squeeze, hc, if_neg Bool.false_ne_true]

/-- **Of a run of blanks the last one is made the space**, so a blank is kept or dropped by what
follows it, not by what stands before. -/
theorem squeeze_cons_of_isBlank (hc : isBlank c) (hcs : cs.head?.any isBlank = false) :
    squeeze (c :: cs) = ' ' :: squeeze cs := by
  rw [squeeze, if_pos hc, hcs, if_neg Bool.false_ne_true]

/-- A blank before another leaves no trace. -/
theorem squeeze_cons_cons_of_isBlank (hc : isBlank c) (hd : isBlank d) :
    squeeze (c :: d :: cs) = squeeze (d :: cs) := by
  rw [squeeze, if_pos hc]
  exact if_pos hd

/-- A front without blanks stays as it is before the rest, squeezed. -/
theorem squeeze_append_of_free {front : List Char} (hfront : ∀ c ∈ front, isBlank c = false)
    (cs : List Char) : squeeze (front ++ cs) = front ++ squeeze cs := by
  induction front with
  | nil => rfl
  | cons c front ih =>
    obtain ⟨hc, hfront⟩ := List.forall_mem_cons.1 hfront
    rw [List.cons_append, squeeze_cons_of_free hc, ih hfront, List.cons_append]

/-- A text without blanks, such as a word, is squeezed to itself. -/
theorem squeeze_of_free (hcs : ∀ c ∈ cs, isBlank c = false) : squeeze cs = cs := by
  have h := squeeze_append_of_free hcs []
  rwa [List.append_nil, squeeze, List.append_nil] at h

/-- **A text that begins with a blank begins with a space when it is squeezed**, and goes on with
what is squeezed of it after the whole run. -/
theorem squeeze_eq_cons_of_isBlank (hc : isBlank c) (cs : List Char) :
    squeeze (c :: cs) = ' ' :: squeeze (cs.dropWhile isBlank) := by
  induction cs generalizing c with
  | nil => exact squeeze_cons_of_isBlank hc rfl
  | cons d cs ih =>
    cases hd : isBlank d with
    | true => rw [squeeze_cons_cons_of_isBlank hc hd, ih hd, List.dropWhile_cons_of_pos hd]
    | false =>
      have hcs : (d :: cs).head?.any isBlank = false := hd
      rw [squeeze_cons_of_isBlank hc hcs, List.dropWhile_cons_of_neg (Bool.eq_false_iff.1 hd)]

/-- Nothing is squeezed away altogether: a run of blanks leaves its space, also at the ends of a
text. -/
theorem squeeze_eq_nil_iff : squeeze cs = [] ↔ cs = [] := by
  constructor
  · intro h
    obtain _ | ⟨c, cs⟩ := cs
    · rfl
    · cases hc : isBlank c with
      | true =>
        rw [squeeze_eq_cons_of_isBlank hc] at h
        cases h
      | false =>
        rw [squeeze_cons_of_free hc] at h
        cases h
  · rintro rfl
    rfl

/-! ## Cutting

A class of characters that does not tell one blank from another, or from a space, keeps or drops a run
of blanks as it does the one space that is made of it. -/

section Cutting

variable (hp : ∀ b, isBlank b → p b = p ' ')
include hp

/-- **Squeezing commutes with dropping a front.**  If the class has the blanks, a run of them is
dropped with the space it becomes; if it has none, nothing is dropped past a run or past its
space. -/
theorem squeeze_dropWhile (cs : List Char) :
    squeeze (cs.dropWhile p) = (squeeze cs).dropWhile p := by
  induction cs with
  | nil => rfl
  | cons c cs ih =>
    cases hblank : isBlank c with
    | false =>
      rw [squeeze_cons_of_free hblank]
      cases hc : p c with
      | true => rw [List.dropWhile_cons_of_pos hc, List.dropWhile_cons_of_pos hc, ih]
      | false =>
        have hstop : ¬ p c = true := Bool.eq_false_iff.1 hc
        rw [List.dropWhile_cons_of_neg hstop, List.dropWhile_cons_of_neg hstop,
          squeeze_cons_of_free hblank]
    | true =>
      have hc := hp c hblank
      cases hspace : p ' ' with
      | true =>
        rw [hspace] at hc
        rw [List.dropWhile_cons_of_pos hc, ih, squeeze, if_pos hblank]
        split
        · rfl
        · rw [List.dropWhile_cons_of_pos hspace]
      | false =>
        rw [hspace] at hc
        rw [List.dropWhile_cons_of_neg (Bool.eq_false_iff.1 hc), squeeze_eq_cons_of_isBlank hblank,
          List.dropWhile_cons_of_neg (Bool.eq_false_iff.1 hspace)]

/-- **Squeezing commutes with taking a front.**  The front ends inside no run of blanks, since the
class has all of a run or nothing of it. -/
theorem squeeze_takeWhile (cs : List Char) :
    squeeze (cs.takeWhile p) = (squeeze cs).takeWhile p := by
  induction cs with
  | nil => rfl
  | cons c cs ih =>
    cases hblank : isBlank c with
    | false =>
      rw [squeeze_cons_of_free hblank]
      cases hc : p c with
      | true =>
        rw [List.takeWhile_cons_of_pos hc, List.takeWhile_cons_of_pos hc,
          squeeze_cons_of_free hblank, ih]
      | false =>
        have hstop : ¬ p c = true := Bool.eq_false_iff.1 hc
        rw [List.takeWhile_cons_of_neg hstop, List.takeWhile_cons_of_neg hstop, squeeze]
    | true =>
      have hc := hp c hblank
      cases hspace : p ' ' with
      | true =>
        rw [hspace] at hc
        -- the blank is followed by a blank in the front iff it is in the whole text
        have hhead : (cs.takeWhile p).head?.any isBlank = cs.head?.any isBlank := by
          obtain _ | ⟨d, cs⟩ := cs
          · rfl
          cases hd : p d with
          | true => rw [List.takeWhile_cons_of_pos hd]; rfl
          | false =>
            have hfree : isBlank d = false := Bool.eq_false_iff.2 fun hd' => by
              rw [hp d hd', hspace] at hd
              cases hd
            rw [List.takeWhile_cons_of_neg (Bool.eq_false_iff.1 hd)]
            exact hfree.symm
        rw [List.takeWhile_cons_of_pos hc, squeeze, squeeze, if_pos hblank, if_pos hblank, hhead, ih]
        split
        · rfl
        · rw [List.takeWhile_cons_of_pos hspace]
      | false =>
        rw [hspace] at hc
        rw [List.takeWhile_cons_of_neg (Bool.eq_false_iff.1 hc), squeeze_eq_cons_of_isBlank hblank,
          List.takeWhile_cons_of_neg (Bool.eq_false_iff.1 hspace), squeeze]

end Cutting

/-! ## Turning round

Squeezing goes from the front; what a character at the end adds is an induction of its own, and gives
the text turned round. -/

/-- A character at the end that is no blank stays, as one at the front does. -/
theorem squeeze_concat_of_free (hc : isBlank c = false) (cs : List Char) :
    squeeze (cs ++ [c]) = squeeze cs ++ [c] := by
  induction cs with
  | nil => exact squeeze_cons_of_free hc []
  | cons d cs ih =>
    have hhead : (cs ++ [c]).head?.any isBlank = cs.head?.any isBlank := by
      cases cs with
      | nil => exact hc
      | cons e cs => rfl
    rw [List.cons_append, squeeze, squeeze, hhead, ih]
    split
    · split
      · rfl
      · rfl
    · rfl

/-- **A blank at the end adds a space**, unless the text ends with a blank already: then the run it
lengthens has its space. -/
theorem squeeze_concat_of_isBlank (hc : isBlank c) (cs : List Char) : squeeze (cs ++ [c])
    = if cs.getLast?.any isBlank then squeeze cs else squeeze cs ++ [' '] := by
  induction cs with
  | nil => exact squeeze_cons_of_isBlank hc rfl
  | cons d cs ih =>
    obtain _ | ⟨e, cs⟩ := cs
    · have hspace : squeeze [c] = [' '] := squeeze_cons_of_isBlank hc rfl
      have hlast : [d].getLast?.any isBlank = isBlank d := rfl
      rw [List.singleton_append, hlast]
      cases hd : isBlank d with
      | true => rw [squeeze_cons_cons_of_isBlank hd hc, hspace, squeeze_cons_of_isBlank hd rfl]; rfl
      | false => rw [squeeze_cons_of_free hd, hspace, squeeze_cons_of_free hd]; rfl
    · rw [List.getLast?_cons_cons, List.cons_append]
      cases hd : isBlank d with
      | false =>
        rw [squeeze_cons_of_free hd, squeeze_cons_of_free hd, ih]
        split
        · rfl
        · rfl
      | true =>
        cases he : isBlank e with
        | true =>
          have hrun : squeeze (d :: (e :: cs ++ [c])) = squeeze (e :: cs ++ [c]) :=
            squeeze_cons_cons_of_isBlank hd he
          rw [hrun, ih, squeeze_cons_cons_of_isBlank hd he]
        | false =>
          have hspace : ∀ ds, squeeze (d :: e :: ds) = ' ' :: squeeze (e :: ds) :=
            fun _ => squeeze_cons_of_isBlank hd he
          have hcut : squeeze (d :: (e :: cs ++ [c])) = ' ' :: squeeze (e :: cs ++ [c]) :=
            hspace (cs ++ [c])
          rw [hcut, ih, hspace]
          split
          · rfl
          · rfl

/-- **Squeezing does not see which way a text runs**: a run of blanks becomes one space read from
either end, although only its last blank is made the space. -/
theorem squeeze_reverse (cs : List Char) : squeeze cs.reverse = (squeeze cs).reverse := by
  induction cs with
  | nil => rfl
  | cons c cs ih =>
    rw [List.reverse_cons]
    cases hblank : isBlank c with
    | false =>
      rw [squeeze_concat_of_free hblank, squeeze_cons_of_free hblank, List.reverse_cons, ih]
    | true =>
      rw [squeeze_concat_of_isBlank hblank, squeeze, if_pos hblank, List.getLast?_reverse, ih]
      split
      · rfl
      · rw [List.reverse_cons]

/-- **Squeezing commutes with dropping an end**, which is dropping a front of the text turned
round. -/
theorem squeeze_dropEndWhile (hp : ∀ b, isBlank b → p b = p ' ') (cs : List Char) :
    squeeze (dropEndWhile p cs) = dropEndWhile p (squeeze cs) := by
  rw [dropEndWhile, dropEndWhile, squeeze_reverse, squeeze_dropWhile hp, squeeze_reverse]

/-- **Squeezing commutes with trimming**: what is trimmed are whole runs of blanks, and after
squeezing the spaces they have become. -/
theorem squeeze_trim (cs : List Char) : squeeze (trim cs) = trim (squeeze cs) := by
  have hp : ∀ b, isBlank b → isBlank b = isBlank ' ' := fun _ hb => hb
  rw [trim, trimEnd, squeeze_dropEndWhile hp, trimStart, squeeze_dropWhile hp]
  rfl

/-! ## Words -/

/-- **The words of a text with one space between each two** are the trimmed text, squeezed.  So what
is read of words joined again, such as a font family of several words, is read of the text
itself. -/
theorem joined_words (cs : List Char) : joined [' '] (words cs) = squeeze (trim cs) := by
  have htrim : trim (trim cs) = trim cs := trim_trim cs
  rw [← words_trim]
  generalize trim cs = cs at htrim
  -- by words: a trimmed text is its first word, or that, blanks and a trimmed text
  generalize hwords : words cs = ws
  induction ws generalizing cs with
  | nil =>
    obtain _ | ⟨c, cs⟩ := cs
    · rfl
    · have hblank := isBlank_of_words_eq_nil hwords c List.mem_cons_self
      rw [(trim_eq_self_iff.1 htrim).1 c rfl] at hblank
      cases hblank
  | cons word ws ih =>
    have hmem : word ∈ words cs := hwords ▸ List.mem_cons_self
    have hfree := isBlank_of_mem_words hmem
    obtain _ | ⟨next, ws⟩ := ws
    · obtain rfl : cs = word := htrim.symm.trans (trim_eq_of_words hwords)
      rw [joined_singleton, squeeze_of_free hfree]
    · obtain ⟨hstart, hend⟩ := trim_eq_self_iff.1 htrim
      obtain ⟨gap, tail, rfl, hgap, hgapne, hhead, hrest⟩ := exists_of_words_eq_cons hstart hwords
      have htail : tail ≠ [] := by
        rintro rfl
        cases hrest
      have hlast : (word ++ (gap ++ tail)).getLast? = tail.getLast? := by
        rw [← List.append_assoc, List.getLast?_append_of_ne_nil _ htail]
      have htrimTail : trim tail = tail :=
        trim_eq_self_iff.2 ⟨hhead, fun c hc => hend c (hlast.trans hc)⟩
      obtain ⟨b, gap, rfl⟩ := List.exists_cons_of_ne_nil (hgapne htail)
      obtain ⟨hb, hgap⟩ := List.forall_mem_cons.1 hgap
      have hdrop : (gap ++ tail).dropWhile isBlank = tail := by
        rw [List.dropWhile_append_of_pos hgap, dropWhile_eq_self_iff.2 hhead]
      rw [squeeze_append_of_free hfree, List.cons_append, squeeze_eq_cons_of_isBlank hb, hdrop,
        ← ih tail htrimTail hrest, joined_cons_cons]
      rfl

end ScreenLayout.Text
