import Mathlib.Data.List.DropRight
import ScreenLayout.Text.Blank

/-!
# Proofs/Text/Blank — trimmed texts, and texts cut at a blank

Trimming takes blanks off both ends and nothing else.  A text cut at its last blank is the part before
it and its last word.

* `takeWhile_dropWhile_iff` — where a list is cut at the first that is not of a class.
* `Text.eq_false_of_all` — a class of characters that has none of a list.
* `Text.exists_eq_append_trim` — a text is its trimmed part between blanks.
* `Text.trim_eq_self_iff` — a text is trimmed when it neither begins nor ends with a blank;
  `Text.trim_append_blank` — blanks around a text are trimmed with it.
* `Text.splitOnce?_eq_some_iff`, `Text.splitLast?_eq_some_iff` — what the first of a character, and
  the last character of a kind, cuts a text into.
* `Text.words_append_cons` — a blank parts the words; `Text.flatten_words` — they are what is left
  without the blanks.
* `Text.words_append_of_free`, `Text.exists_of_words_eq_cons` — the first word of a text.
* `Text.words_trim`, `Text.trim_eq_of_words` — the words of a trimmed text, and a text of one word.
* `Text.joined_cons_cons` — the first of the texts that are joined.
* `Text.contains_iff_infix` — what a search finds.
-/

namespace ScreenLayout

/-! ## Runs of characters -/

section Runs

variable {α : Type} {p : α → Bool} {front back : List α} {a : α}

theorem takeWhile_append_cons (hfront : ∀ b ∈ front, p b) (ha : p a = false) (back : List α) :
    (front ++ a :: back).takeWhile p = front := by
  rw [List.takeWhile_append_of_pos hfront, List.takeWhile_cons_of_neg (Bool.eq_false_iff.1 ha),
    List.append_nil]

theorem dropWhile_append_cons (hfront : ∀ b ∈ front, p b) (ha : p a = false) (back : List α) :
    (front ++ a :: back).dropWhile p = a :: back := by
  rw [List.dropWhile_append_of_pos hfront, List.dropWhile_cons_of_neg (Bool.eq_false_iff.1 ha)]

/-- **A list is cut** at the first that is not of a class. -/
theorem takeWhile_dropWhile_iff {l : List α} : l.takeWhile p = front ∧ l.dropWhile p = a :: back ↔
    l = front ++ a :: back ∧ (∀ b ∈ front, p b) ∧ p a = false := by
  constructor
  · rintro ⟨rfl, hdrop⟩
    have hhead := List.head?_dropWhile_not p l
    rw [hdrop] at hhead
    refine ⟨?_, fun _ => List.mem_takeWhile_imp, hhead⟩
    rw [← hdrop, List.takeWhile_append_dropWhile]
  · rintro ⟨rfl, hfront, ha⟩
    exact ⟨takeWhile_append_cons hfront ha back, dropWhile_append_cons hfront ha back⟩

/-- The part of a text before the first of a character. -/
theorem takeWhile_bne_append_cons [DecidableEq α] (ha : a ∉ front) (back : List α) :
    (front ++ a :: back).takeWhile (· != a) = front :=
  takeWhile_append_cons (fun _ hb => bne_iff_ne.2 (ne_of_mem_of_not_mem hb ha))
    (bne_self_eq_false a) back

/-- A front of one class is part of the longest. -/
theorem prefix_takeWhile (hfront : ∀ b ∈ front, p b) (h : front <+: back) :
    front <+: back.takeWhile p := by
  obtain ⟨rest, rfl⟩ := h
  rw [List.takeWhile_append_of_pos hfront]
  exact List.prefix_append _ _

/-- A front without a character ends before it. -/
theorem prefix_of_not_mem {x : List α} (ha : a ∉ x) (h : x <+: front ++ a :: back) :
    x <+: front := by
  obtain hfront | ⟨y, rfl⟩ := List.prefix_or_prefix_of_prefix h (List.prefix_append front _)
  · exact hfront
  · obtain rfl | ⟨tail, rfl, -⟩ :=
      List.prefix_cons_iff.1 ((List.prefix_append_right_inj front).1 h)
    · exact ⟨[], by rw [List.append_nil, List.append_nil]⟩
    · exact absurd (List.mem_append_right front List.mem_cons_self) ha

end Runs

end ScreenLayout

namespace ScreenLayout.Text

variable {p : Char → Bool} {cs : List Char}

/-! ## Classes of characters -/

/-- What holds of no character of a list does not hold of one in it. -/
theorem eq_false_of_all (hall : cs.all (!p ·)) {c : Char} (hc : c ∈ cs) : p c = false :=
  Bool.not_inj (List.all_eq_true.1 hall c hc)

theorem not_mem_of_all (hall : cs.all (!p ·)) {c : Char} (hc : p c) : c ∉ cs := by
  intro hmem
  rw [eq_false_of_all hall hmem] at hc
  cases hc

theorem eq_false_of_isBlank (hall : blanks.all (!p ·)) {c : Char} (hc : isBlank c) : p c = false :=
  eq_false_of_all hall (List.contains_iff_mem.1 hc)

/-- A class of characters without a blank. -/
theorem isBlank_eq_false_of (hall : blanks.all (!p ·)) {c : Char} (hc : p c) : isBlank c = false := by
  rw [isBlank, List.contains_eq_mem, decide_eq_false_iff_not]
  exact not_mem_of_all hall hc

/-! ## Trimming -/

theorem exists_eq_append_trimEnd (cs : List Char) :
    ∃ back, cs = trimEnd cs ++ back ∧ ∀ c ∈ back, isBlank c :=
  ⟨cs.rtakeWhile isBlank, List.rdropWhile_append_rtakeWhile.symm,
    fun _ hc => List.mem_rtakeWhile_imp hc⟩

/-- **A text is its trimmed part between blanks.** -/
theorem exists_eq_append_trim (cs : List Char) : ∃ front back, cs = front ++ (trim cs ++ back) ∧
    (∀ c ∈ front, isBlank c) ∧ ∀ c ∈ back, isBlank c := by
  obtain ⟨back, htext, hback⟩ := exists_eq_append_trimEnd (trimStart cs)
  refine ⟨cs.takeWhile isBlank, back, ?_, fun c hc => List.mem_takeWhile_imp hc, hback⟩
  rw [trim, ← htext]
  exact List.takeWhile_append_dropWhile.symm

theorem eq_false_of_mem_head?_dropWhile {c : Char} (hc : c ∈ (cs.dropWhile p).head?) :
    p c = false := by
  have hnot := List.head?_dropWhile_not p cs
  rw [Option.mem_def.1 hc] at hnot
  exact hnot

theorem mem_of_mem_trim {c : Char} (hc : c ∈ trim cs) : c ∈ cs := by
  obtain ⟨front, back, hcs, -, -⟩ := exists_eq_append_trim cs
  rw [hcs]
  exact List.mem_append_right _ (List.mem_append_left _ hc)

theorem length_trim_le (cs : List Char) : (trim cs).length ≤ cs.length :=
  (length_dropEndWhile_le _ _).trans (List.dropWhile_sublist _).length_le

theorem head?_trim : ∀ c ∈ (trim cs).head?, isBlank c = false := by
  intro c hc
  obtain ⟨tail, htail⟩ : trim cs <+: trimStart cs := List.rdropWhile_prefix isBlank _
  have hstart : (cs.dropWhile isBlank).head? = some c := by
    rw [show cs.dropWhile isBlank = trim cs ++ tail from htail.symm, List.head?_append, hc]
    rfl
  exact eq_false_of_mem_head?_dropWhile hstart

theorem getLast?_trim : ∀ c ∈ (trim cs).getLast?, isBlank c = false := by
  intro c hc
  have hne : trim cs ≠ [] := List.ne_nil_of_mem (List.mem_of_mem_getLast? hc)
  rw [← List.getLast_of_mem_getLast? hc]
  exact Bool.eq_false_iff.2 (List.rdropWhile_last_not isBlank (trimStart cs) hne)

theorem dropWhile_eq_self_iff : cs.dropWhile p = cs ↔ ∀ c ∈ cs.head?, p c = false := by
  rw [List.dropWhile_eq_self_iff]
  cases cs <;> simp

theorem dropEndWhile_eq_self_iff : dropEndWhile p cs = cs ↔ ∀ c ∈ cs.getLast?, p c = false := by
  refine ⟨fun h c hc => ?_, fun hlast => List.rdropWhile_eq_self_iff.2 fun hne => ?_⟩
  · have hne : cs ≠ [] := List.ne_nil_of_mem (List.mem_of_mem_getLast? hc)
    rw [← List.getLast_of_mem_getLast? hc]
    exact Bool.eq_false_iff.2 (List.rdropWhile_eq_self_iff.1 h hne)
  · exact Bool.eq_false_iff.1 (hlast _ (List.getLast?_eq_some_getLast hne))

theorem trimStart_eq_self (h : ∀ c ∈ cs.head?, isBlank c = false) : trimStart cs = cs :=
  dropWhile_eq_self_iff.2 h

/-- Blanks before a text stay apart from what follows it. -/
theorem trimStart_append (h : trimStart cs ≠ []) (back : List Char) :
    trimStart (cs ++ back) = trimStart cs ++ back := by
  have hempty : (cs.dropWhile isBlank).isEmpty = false := List.isEmpty_eq_false_iff.2 h
  rw [trimStart, List.dropWhile_append, hempty]
  rfl

theorem trimEnd_eq_self_iff : trimEnd cs = cs ↔ ∀ c ∈ cs.getLast?, isBlank c = false :=
  dropEndWhile_eq_self_iff

/-- **A text is trimmed** when it neither begins nor ends with a blank. -/
theorem trim_eq_self_iff : trim cs = cs ↔
    (∀ c ∈ cs.head?, isBlank c = false) ∧ ∀ c ∈ cs.getLast?, isBlank c = false := by
  refine ⟨fun h => ?_, fun ⟨hhead, hlast⟩ => ?_⟩
  · rw [← h]
    exact ⟨head?_trim, getLast?_trim⟩
  · rw [trim, trimStart_eq_self hhead, trimEnd_eq_self_iff.2 hlast]

theorem trimEnd_of_trim (h : trim cs = cs) : trimEnd cs = cs :=
  trimEnd_eq_self_iff.2 (trim_eq_self_iff.1 h).2

/-- The front of a trimmed text begins with no blank. -/
theorem trim_eq_trimEnd_of_append {front back : List Char}
    (h : trim (front ++ back) = front ++ back) : trim front = trimEnd front := by
  rw [trim, trimStart_eq_self fun c hc => (trim_eq_self_iff.1 h).1 c ?_]
  rw [List.head?_append, hc]
  rfl

/-- A text that ends in a part without blanks ends in no blank. -/
theorem trimEnd_append_of_free (front : List Char) (hne : cs ≠ [])
    (hfree : ∀ c ∈ cs, isBlank c = false) : trimEnd (front ++ cs) = front ++ cs := by
  refine trimEnd_eq_self_iff.2 fun c hc => hfree c ?_
  rw [List.getLast?_append_of_ne_nil _ hne] at hc
  exact List.mem_of_mem_getLast? hc

theorem trim_of_free (hfree : ∀ c ∈ cs, isBlank c = false) : trim cs = cs :=
  trim_eq_self_iff.2 ⟨fun c hc => hfree c (List.mem_of_mem_head? hc),
    fun c hc => hfree c (List.mem_of_mem_getLast? hc)⟩

@[simp] theorem trim_trim (cs : List Char) : trim (trim cs) = trim cs :=
  trim_eq_self_iff.2 ⟨head?_trim, getLast?_trim⟩

/-- **Nothing is left of a text** that has no character but blanks. -/
theorem trim_eq_nil_iff : trim cs = [] ↔ ∀ c ∈ cs, isBlank c := by
  constructor
  · intro hnil
    obtain ⟨front, back, hcs, hfront, hback⟩ := exists_eq_append_trim cs
    rw [hnil, List.nil_append] at hcs
    rw [hcs]
    exact List.forall_mem_append.2 ⟨hfront, hback⟩
  · intro hall
    rw [trim, trimStart, List.dropWhile_eq_nil_iff.2 hall]
    rfl

/-- Blanks after a text are trimmed at its end. -/
theorem trimEnd_append_blank {back : List Char} (hback : ∀ c ∈ back, isBlank c) (cs : List Char) :
    trimEnd (cs ++ back) = trimEnd cs := by
  have hreverse : ∀ c ∈ back.reverse, isBlank c := fun c hc => hback c (List.mem_reverse.1 hc)
  rw [trimEnd, dropEndWhile, List.reverse_append, List.dropWhile_append_of_pos hreverse]
  rfl

/-- **Blanks around a text** are trimmed with it. -/
theorem trim_append_blank {front back : List Char} (hfront : ∀ c ∈ front, isBlank c)
    (hback : ∀ c ∈ back, isBlank c) (cs : List Char) : trim (front ++ (cs ++ back)) = trim cs := by
  have hstart : trim (front ++ (cs ++ back)) = trim (cs ++ back) := by
    rw [trim, trimStart, List.dropWhile_append_of_pos hfront]
    rfl
  rw [hstart]
  by_cases hnil : trimStart cs = []
  · have hcs : ∀ c ∈ cs, isBlank c := List.dropWhile_eq_nil_iff.1 hnil
    have hall : trimStart (cs ++ back) = [] :=
      List.dropWhile_eq_nil_iff.2 (List.forall_mem_append.2 ⟨hcs, hback⟩)
    rw [trim, trim, hall, hnil]
  · rw [trim, trimStart_append hnil, trimEnd_append_blank hback, ← trim]

/-- A class with all blanks stops at the same character before and after trimming. -/
theorem trim_takeWhile_trim (hp : ∀ b, isBlank b → p b) (cs : List Char) :
    trim ((trim cs).takeWhile p) = trim (cs.takeWhile p) := by
  obtain ⟨front, back, hcs, hfront, hback⟩ := exists_eq_append_trim cs
  generalize trim cs = body at hcs
  subst hcs
  rw [List.takeWhile_append_of_pos fun c hc => hp c (hfront c hc), List.takeWhile_append]
  split
  · rename_i hall
    have htaken : body.takeWhile p = body := (List.takeWhile_prefix p).eq_of_length hall
    rw [htaken, trim_append_blank hfront fun c hc => hback c ((List.takeWhile_sublist p).subset hc)]
  · have hnil : ∀ c ∈ ([] : List Char), isBlank c := List.forall_mem_nil _
    have hend := trim_append_blank hfront hnil (body.takeWhile p)
    rw [List.append_nil] at hend
    exact hend.symm

/-! ## Cut at the first of a character -/

/-- **What the first of a character cuts a text into.** -/
theorem splitOnce?_eq_some_iff {sep : Char} {head tail : List Char} :
    splitOnce? sep cs = some (head, tail) ↔ cs = head ++ sep :: tail ∧ sep ∉ head := by
  have hcut : splitOnce? sep cs = some (head, tail) ↔ ∃ c, cs.takeWhile (· != sep) = head ∧
      cs.dropWhile (· != sep) = c :: tail := by
    unfold splitOnce?
    split <;> simp [*]
  simp only [hcut, takeWhile_dropWhile_iff, bne_eq_false_iff_eq, bne_iff_ne]
  constructor
  · rintro ⟨_, rfl, hhead, rfl⟩
    exact ⟨rfl, fun hmem => hhead _ hmem rfl⟩
  · rintro ⟨rfl, hsep⟩
    exact ⟨sep, rfl, fun _ hc => ne_of_mem_of_not_mem hc hsep, rfl⟩

theorem splitOnce?_eq_none_iff {sep : Char} : splitOnce? sep cs = none ↔ sep ∉ cs := by
  have hnil : splitOnce? sep cs = none ↔ cs.dropWhile (· != sep) = [] := by
    unfold splitOnce?
    split <;> simp [*]
  rw [hnil, List.dropWhile_eq_nil_iff]
  exact ⟨fun h hmem => bne_iff_ne.1 (h sep hmem) rfl,
    fun h c hc => bne_iff_ne.2 (ne_of_mem_of_not_mem hc h)⟩

/-! ## Cut at the last character of a kind -/

/-- **What the last character of a kind cuts a text into.** -/
theorem splitLast?_eq_some_iff {head tail : List Char} : splitLast? p cs = some (head, tail) ↔
    ∃ c, p c ∧ cs = head ++ c :: tail ∧ ∀ d ∈ tail, p d = false := by
  have hcut : splitLast? p cs = some (head, tail) ↔
      ∃ c, cs.reverse.takeWhile (!p ·) = tail.reverse ∧
        cs.reverse.dropWhile (!p ·) = c :: head.reverse := by
    unfold splitLast?
    split
    · simp [*]
    · simp [*, List.reverse_eq_iff, and_comm]
  have hreverse : ∀ c, cs.reverse = tail.reverse ++ c :: head.reverse ↔ cs = head ++ c :: tail := by
    intro c
    rw [List.reverse_eq_iff]
    simp
  simp only [hcut, takeWhile_dropWhile_iff, hreverse, List.mem_reverse, Bool.not_eq_true',
    Bool.not_eq_false']
  exact exists_congr fun c => ⟨fun ⟨htext, htail, hc⟩ => ⟨hc, htext, htail⟩,
    fun ⟨hc, htext, htail⟩ => ⟨htext, htail, hc⟩⟩

theorem splitLast?_eq_none_iff : splitLast? p cs = none ↔ ∀ c ∈ cs, p c = false := by
  have hnil : splitLast? p cs = none ↔ cs.reverse.dropWhile (!p ·) = [] := by
    unfold splitLast?
    split <;> simp [*]
  rw [hnil, List.dropWhile_eq_nil_iff]
  simp

/-! ## Words -/

/-- The pieces between characters of a kind are those of the library. -/
theorem splitOn_eq_splitOnP (p : Char → Bool) (cs : List Char) : splitOn p cs = cs.splitOnP p := by
  induction cs with
  | nil => rfl
  | cons c cs ih =>
    rw [splitOn, List.splitOnP_cons_eq_if_modifyHead, ih]
    split
    · rfl
    · obtain ⟨piece, pieces, hpieces⟩ := List.exists_cons_of_ne_nil (List.splitOnP_ne_nil p cs)
      rw [hpieces]
      rfl

/-- **A blank parts the words.** -/
theorem words_append_cons {c : Char} (hc : isBlank c) (front back : List Char) :
    words (front ++ c :: back) = words front ++ words back := by
  simp only [words, splitOn_eq_splitOnP, List.splitOnP_append_cons _ _ hc, List.filter_append]

/-- A text without blanks is one word. -/
theorem words_of_free (hne : cs ≠ []) (hfree : ∀ c ∈ cs, isBlank c = false) : words cs = [cs] := by
  rw [words, splitOn_eq_splitOnP, List.splitOnP_eq_singleton hfree, List.filter_singleton,
    List.isEmpty_eq_false_iff.2 hne]
  rfl

theorem words_append_of_blank (hall : ∀ c ∈ cs, isBlank c) (back : List Char) :
    words (cs ++ back) = words back := by
  induction cs with
  | nil => rfl
  | cons c cs ih =>
    obtain ⟨hc, hall⟩ := List.forall_mem_cons.1 hall
    rw [List.cons_append, ← ih hall]
    exact words_append_cons hc [] (cs ++ back)

theorem words_append_blank (hall : ∀ c ∈ cs, isBlank c) (front : List Char) :
    words (front ++ cs) = words front := by
  cases cs with
  | nil => rw [List.append_nil]
  | cons c cs =>
    obtain ⟨hc, hall⟩ := List.forall_mem_cons.1 hall
    have hnil : words cs = [] := by
      rw [← List.append_nil cs, words_append_of_blank hall]
      rfl
    rw [words_append_cons hc, hnil, List.append_nil]

/-- **Trimming keeps the words.** -/
theorem words_trim (cs : List Char) : words (trim cs) = words cs := by
  obtain ⟨front, back, hcs, hfront, hback⟩ := exists_eq_append_trim cs
  have hwords : words (front ++ (trim cs ++ back)) = words (trim cs) := by
    rw [words_append_of_blank hfront, words_append_blank hback]
  rw [← hwords, ← hcs]

/-- **The words are the text without its blanks.** -/
theorem flatten_words (cs : List Char) : (words cs).flatten = cs.filter (!isBlank ·) := by
  rw [words, List.flatten_filter_not_isEmpty]
  induction cs with
  | nil => rfl
  | cons c cs ih =>
    rw [splitOn]
    split
    · rename_i hc
      rw [List.filter_cons_of_neg (by rw [hc]; exact Bool.false_ne_true), ← ih]
      rfl
    · rename_i hc
      rw [List.filter_cons_of_pos (by rw [Bool.eq_false_iff.2 hc]; rfl), ← ih]
      split
      · rename_i hnil
        rw [hnil]
        rfl
      · rename_i piece pieces hpieces
        rw [hpieces]
        rfl

/-- **A word has no blank.** -/
theorem isBlank_of_mem_words {word : List Char} (h : word ∈ words cs) :
    ∀ c ∈ word, isBlank c = false := by
  intro c hc
  have hmem : c ∈ cs.filter (!isBlank ·) := flatten_words cs ▸ List.mem_flatten_of_mem h hc
  simpa using (List.mem_filter.1 hmem).2

/-- **A word before a blank, or at the end**, is the first of the words. -/
theorem words_append_of_free {word : List Char} (hne : word ≠ [])
    (hfree : ∀ c ∈ word, isBlank c = false) {rest : List Char}
    (hrest : ∀ c ∈ rest.head?, isBlank c) : words (word ++ rest) = word :: words rest := by
  cases rest with
  | nil =>
    rw [List.append_nil, words_of_free hne hfree]
    rfl
  | cons b rest =>
    have hb : isBlank b := hrest b rfl
    have hskip : words (b :: rest) = words rest := words_append_cons hb [] rest
    rw [words_append_cons hb, words_of_free hne hfree, hskip]
    rfl

/-- **A text that begins with no blank** is its first word, blanks, and the text of the other words;
if there are others, there are blanks before them. -/
theorem exists_of_words_eq_cons (hstart : ∀ c ∈ cs.head?, isBlank c = false) {word : List Char}
    {rest : List (List Char)} (h : words cs = word :: rest) :
    ∃ gap tail, cs = word ++ (gap ++ tail) ∧ (∀ c ∈ gap, isBlank c) ∧ (tail ≠ [] → gap ≠ []) ∧
      (∀ c ∈ tail.head?, isBlank c = false) ∧ words tail = rest := by
  have hcs : cs.takeWhile (!isBlank ·) ++ cs.dropWhile (!isBlank ·) = cs :=
    List.takeWhile_append_dropWhile
  have hfree : ∀ c ∈ cs.takeWhile (!isBlank ·), isBlank c = false := fun c hc => by
    simpa using List.mem_takeWhile_imp hc
  have hne : cs.takeWhile (!isBlank ·) ≠ [] := by
    obtain _ | ⟨c, cs⟩ := cs
    · cases h
    · rw [List.takeWhile_cons_of_pos (by simpa using hstart c rfl)]
      exact List.cons_ne_nil _ _
  have hback : ∀ c ∈ (cs.dropWhile (!isBlank ·)).head?, isBlank c := fun c hc => by
    simpa using eq_false_of_mem_head?_dropWhile hc
  generalize cs.takeWhile (!isBlank ·) = first at hcs hfree hne
  generalize cs.dropWhile (!isBlank ·) = back at hcs hback
  have hgap : ∀ c ∈ back.takeWhile isBlank, isBlank c := fun _ => List.mem_takeWhile_imp
  have hcut : back.takeWhile isBlank ++ back.dropWhile isBlank = back :=
    List.takeWhile_append_dropWhile
  rw [← hcs, words_append_of_free hne hfree hback, ← hcut, words_append_of_blank hgap] at h
  obtain ⟨rfl, hrest⟩ := List.cons.inj h
  refine ⟨_, _, by rw [hcut, hcs], hgap, fun htail hnil => ?_,
    fun _ => eq_false_of_mem_head?_dropWhile, hrest⟩
  obtain ⟨c, tail, hc⟩ := List.exists_cons_of_ne_nil htail
  have hhead : c ∈ (back.dropWhile isBlank).head? := by rw [hc]; rfl
  have hblank : isBlank c := hback c (by rw [← hcut, hnil]; exact hhead)
  rw [eq_false_of_mem_head?_dropWhile hhead] at hblank
  cases hblank

theorem isBlank_of_words_eq_nil (h : words cs = []) : ∀ c ∈ cs, isBlank c := by
  have hfilter : cs.filter (!isBlank ·) = [] := by
    rw [← flatten_words, h]
    rfl
  intro c hc
  simpa using List.filter_eq_nil_iff.1 hfilter c hc

/-- A trimmed text has a word before each of its blanks, and one after it. -/
theorem words_ne_nil_of_trim {front back : List Char} {b : Char} (hb : isBlank b)
    (hcut : trim cs = front ++ b :: back) : words front ≠ [] ∧ words back ≠ [] := by
  constructor
  · intro hnil
    have hall : ∀ c ∈ front ++ [b], isBlank c :=
      List.forall_mem_append.2 ⟨isBlank_of_words_eq_nil hnil, List.forall_mem_singleton.2 hb⟩
    have hne : front ++ [b] ≠ [] := List.append_ne_nil_of_right_ne_nil front (List.cons_ne_nil b [])
    have hhead : (trim cs).head? = some ((front ++ [b]).head hne) := by
      rw [hcut, List.append_cons, List.head?_append, List.head?_eq_some_head hne]
      rfl
    have hblank := hall _ (List.head_mem hne)
    rw [head?_trim _ hhead] at hblank
    cases hblank
  · intro hnil
    have hall : ∀ c ∈ b :: back, isBlank c :=
      List.forall_mem_cons.2 ⟨hb, isBlank_of_words_eq_nil hnil⟩
    have hne : b :: back ≠ [] := List.cons_ne_nil b back
    have hlast : (trim cs).getLast? = some ((b :: back).getLast hne) := by
      rw [hcut, List.getLast?_append_of_ne_nil _ hne, List.getLast?_eq_some_getLast hne]
    have hblank := hall _ (List.getLast_mem hne)
    rw [getLast?_trim _ hlast] at hblank
    cases hblank

/-- **A text of one word** is that word between blanks. -/
theorem trim_eq_of_words {word : List Char} (h : words cs = [word]) : trim cs = word := by
  rw [← words_trim] at h
  by_cases hfree : ∀ c ∈ trim cs, isBlank c = false
  · have hne : trim cs ≠ [] := fun hnil => by
      rw [hnil] at h
      cases h
    rw [words_of_free hne hfree] at h
    exact List.singleton_inj.1 h
  · push Not at hfree
    obtain ⟨b, hmem, hb⟩ := hfree
    obtain ⟨front, back, hcut⟩ := List.append_of_mem hmem
    have hb : isBlank b := Bool.of_not_eq_false hb
    obtain ⟨hfront, hback⟩ := words_ne_nil_of_trim hb hcut
    rw [hcut, words_append_cons hb] at h
    obtain ⟨hnil, -⟩ | ⟨-, hnil⟩ := List.append_eq_singleton_iff.1 h
    · exact absurd hnil hfront
    · exact absurd hnil hback

/-- **The last word of a trimmed text** stands after its last blank. -/
theorem getLast?_words_append_cons {head tail : List Char} {b : Char} (hb : isBlank b)
    (htail : ∀ c ∈ tail, isBlank c = false) (htrim : trim (head ++ b :: tail) = head ++ b :: tail) :
    (words (head ++ b :: tail)).getLast? = some tail := by
  have hne : tail ≠ [] := by
    rintro rfl
    have hlast := (trim_eq_self_iff.1 htrim).2 b (by simp)
    rw [hb] at hlast
    cases hlast
  rw [words_append_cons hb, words_of_free hne htail, List.getLast?_concat]

/-! ## Joining -/

section Joining

variable {sep piece next : List Char} {pieces : List (List Char)}

theorem joined_singleton : joined sep [piece] = piece := List.intercalate_singleton

theorem joined_cons_cons : joined sep (piece :: next :: pieces)
    = piece ++ (sep ++ joined sep (next :: pieces)) :=
  List.intercalate_cons_cons.trans (List.append_assoc piece sep _)

end Joining

/-! ## Searching -/

/-- **A search finds** what stands in the text as it is. -/
theorem contains_iff_infix {pat : List Char} : contains pat cs ↔ pat <:+: cs := by
  induction cs with
  | nil => rw [contains, List.isEmpty_iff, List.infix_nil]
  | cons c cs ih =>
    rw [contains, Bool.or_eq_true, List.isPrefixOf_iff_prefix, ih, List.infix_cons_iff]

end ScreenLayout.Text
