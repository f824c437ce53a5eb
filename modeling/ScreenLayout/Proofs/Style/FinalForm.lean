import ScreenLayout.Proofs.Style.Canonical
import ScreenLayout.Proofs.Style.Patches
import ScreenLayout.Proofs.Text.Case

/-!
# Proofs/Style/FinalForm — the texts of compiled styles are in final form

A keyword is written trimmed and in lower case, a colour trimmed, and a family without a comma.  So a
rule that reads its own writing again finds nothing to change: it keeps every value it admits, when
its text is in final form and its numbers are finite.  Two rules are left out, which may still find
something in their own texts, a gradient in a background colour and quotes around a family.

* `Rule.TextForm`, `Rule.FinalForm` — the form of the texts under a name with a rule.
* `finalForm_of_get?_compile` — compiled values are in final form.
* `Rule.Keeps`, `Rule.keeps_of_settled` — a rule keeps what it admits.
-/

namespace ScreenLayout

namespace Token

/-- A colour in hexadecimal digits has no blank. -/
theorem free_of_munchHex {rest tail : List Char} {kind : TokenKind}
    (h : munchHex rest = .token kind tail) : ∀ d ∈ tail, Text.isBlank d = false := by
  unfold munchHex at h
  dsimp only at h
  split at h
  · cases h
    exact fun d hd => Text.isBlank_eq_false_of (p := isHex) (by decide)
      (List.mem_takeWhile_imp (List.mem_of_mem_take hd))
  · cases h

/-- A word has no blank, and a colour function, which may have some within, ends in its
parenthesis. -/
theorem free_or_close_of_munchWord {c : Char} {rest tail : List Char} {kind : TokenKind}
    (h : munchWord c rest = .token kind tail) :
    (∀ d ∈ tail, Text.isBlank d = false) ∨ ∃ inner, tail = inner ++ [')'] := by
  have hword : ∀ d ∈ rest.takeWhile isIdentChar, Text.isBlank d = false := fun d hd =>
    Text.isBlank_eq_false_of (p := isIdentChar) (by decide) (List.mem_takeWhile_imp hd)
  unfold munchWord at h
  dsimp only at h
  split at h
  · split at h
    · split at h
      · rename_i inside _ _ _
        cases h
        refine .inr ⟨rest.takeWhile isIdentChar ++ '(' :: inside.takeWhile (· != ')'), ?_⟩
        rw [List.append_assoc, List.cons_append]
      · cases h
    · cases h
      exact .inl hword
  · cases h
    exact .inl hword

/-- What is taken for a colour has no blank, or is a colour function up to its parenthesis. -/
theorem free_or_close_of_munch {c : Char} {rest tail : List Char} {kind : TokenKind}
    (h : munch c rest = .token kind tail) (hkind : kind ∈ colorKinds) : Text.isBlank c = false ∧
      ((∀ d ∈ tail, Text.isBlank d = false) ∨ ∃ inner, tail = inner ++ [')']) := by
  unfold munch at h
  split at h
  · rename_i hhash
    exact ⟨by rw [hhash]; decide, .inl (free_of_munchHex h)⟩
  -- marks are no colours
  iterate 4
    split at h
    · cases h
      exact absurd hkind (by decide)
  split at h
  · rename_i hstart
    exact ⟨isBlank_of_isIdentStart hstart, free_or_close_of_munchWord h⟩
  · exact absurd hkind (munchNumber_kind h)

/-- **The text of a colour is trimmed**: it begins with no blank, and ends with none or with a
parenthesis.  So a colour found in a longer text, and not trimmed again, is in final form. -/
theorem trim_text_of_isColor {t : Token} {cs : List Char} (ht : t ∈ scan cs) (hcolor : t.isColor) :
    Text.trim t.text = t.text := by
  obtain ⟨c, rest, tail, hmunch, htext⟩ := exists_munch_of_mem_scan ht
  rw [htext]
  obtain ⟨hc, hfree | ⟨inner, rfl⟩⟩ := free_or_close_of_munch hmunch (kind_of_isColor hcolor)
  · exact Text.trim_of_free (List.forall_mem_cons.2 ⟨hc, hfree⟩)
  · rw [← List.cons_append]
    refine Text.trim_eq_self_iff.2 ⟨fun d hd => ?_, fun d hd => ?_⟩
    · obtain rfl := Option.some.inj hd
      exact hc
    · rw [List.getLast?_concat] at hd
      obtain rfl := Option.some.inj hd
      decide

end Token

/-! ## Texts in final form -/

/-- **The form of the texts under a name with a rule**, as the rule itself leaves them: a rule that
trims, lowers or cuts a text does nothing of that to one in this form, and a rule that takes any
text asks for nothing. -/
def Rule.TextForm (cs : List Char) : Rule → Prop
  | keyword | fontWeight => Text.lowerAscii (Text.trim cs) = cs
  | background => Text.trim cs = cs
  | fontFamily => Text.trim cs = cs ∧ ',' ∉ cs
  | _ => True

/-- **A value in final form**: its text has the form of the rule, if it is a text. -/
def Rule.FinalForm (w : StyleValue) (r : Rule) : Prop := ∀ s, w = .text s → r.TextForm s.toList

section TextForm

variable {c : Config} {property n : String} {v : Json} {cs : List Char} {w : StyleValue}

/-- A text in final form is a value in final form. -/
theorem finalForm_ofText {r : Rule} (h : r.TextForm cs) : r.FinalForm (.ofText cs) := by
  intro s hs
  rw [← StyleValue.text.inj hs, String.toList_ofList]
  exact h

/-- A value that is no text is in final form, whatever the rule. -/
theorem finalForm_of_text?_eq_none {r : Rule} (h : w.text? = none) : r.FinalForm w := by
  rintro s rfl
  cases h

/-- **Trimming and lowering is done once**: what comes of it is trimmed and in lower case. -/
theorem textForm_lowered (cs : List Char) :
    Rule.keyword.TextForm (Text.lowerAscii (Text.trim cs)) := Text.lowerAscii_trim_of_lowered cs

/-- **A family is trimmed and has no comma**: it is cut at the first comma, and trimmed after its
quotes are taken off. -/
theorem textForm_of_firstFamily? {family : List Char} (h : Shorthand.firstFamily? cs = some family) :
    Rule.fontFamily.TextForm family := by
  obtain rfl := Option.some.inj (Option.ite_none_left_eq_some.1 h).2
  refine ⟨Text.trim_trim _, fun hcomma => ?_⟩
  have hentry := Text.mem_of_mem_trim ((List.dropWhile_sublist _).subset
    ((List.rdropWhile_prefix _ _).subset (Text.mem_of_mem_trim hcomma)))
  have hnot := List.mem_takeWhile_imp hentry
  cases hnot

/-- A weight in a font shorthand is written in lower case, and is a word, so it has no blanks to
trim. -/
theorem textForm_of_ofWord? {word lower : List Char}
    (h : Shorthand.FontModifier.ofWord? word = some (.weight lower)) :
    Rule.fontWeight.TextForm lower := by
  obtain ⟨hweight, hlower⟩ := Shorthand.ofWord?_eq_weight_iff.1 h
  rw [Rule.TextForm, Text.trim_of_free hweight.isModifier.isWord.2, ← hlower, Text.lowerAscii_idem]

/-- **A weight is in final form**: a number is printed without blanks and capitals, and a word is
trimmed and lowered. -/
theorem textForm_of_fontWeight? {weight : List Char} (h : fontWeight? v = some weight) :
    Rule.fontWeight.TextForm weight := by
  unfold fontWeight? at h
  split at h
  · rename_i n
    obtain rfl := Option.some.inj h
    rw [Rule.TextForm, Text.trim_of_free (Dimension.isBlank_of_mem_plain n.value),
      Dimension.lowerAscii_plain]
  · obtain rfl := Option.some.inj (Option.ite_none_left_eq_some.1 h).2
    exact textForm_lowered _
  · cases h

/-- **The texts of a background are trimmed**: a colour of a gradient by the reading of its stops,
one found in the text as a token, and any other text as a whole. -/
theorem finalForm_of_backgroundPatch {p : StylePatch} (h : backgroundPatch v = .ok p)
    (hw : (n, w) ∈ p.writes) : Rule.background.FinalForm w := by
  have hone : ∀ {u : StyleValue}, Rule.background.FinalForm u →
      (n, w) ∈ (StylePatch.one "backgroundColor" u).writes → Rule.background.FinalForm w := by
    intro u hu hmem
    obtain ⟨-, rfl⟩ := Prod.mk.inj (List.mem_singleton.1 hmem)
    exact hu
  unfold backgroundPatch at h
  split at h
  · dsimp only at h
    split at h
    · split at h
      · rename_i _ g hg
        cases h
        obtain ⟨color, hcolor, heq⟩ := List.mem_map.1 hw
        obtain ⟨-, rfl⟩ := Prod.mk.inj heq
        obtain ⟨angle, colors, rfl, -, hcolors⟩ := Gradient.exists_of_parse? hg
        obtain ⟨cs, hcs, rfl⟩ :=
          List.mem_map.1 (List.mem_of_mem_head? (Option.mem_toList.1 hcolor))
        exact finalForm_ofText (hcolors cs hcs).trimmed
      · rename_i color _ hcolor
        cases h
        obtain ⟨t, ht, rfl⟩ := Option.map_eq_some_iff.1 hcolor
        have htrim := Token.trim_text_of_isColor (List.mem_of_find?_eq_some ht) (List.find?_some ht)
        exact hone (finalForm_ofText htrim) hw
      · cases h
    · cases h
      exact hone (finalForm_ofText (Text.trim_trim _)) hw
  · cases h
    exact hone (finalForm_of_text?_eq_none rfl) hw

/-- The line styles are listed in lower case. -/
theorem textForm_of_lineStyle {line : List Char} (h : line ∈ Shorthand.lineStyles) :
    Rule.keyword.TextForm line := by
  have hlines : ∀ line ∈ Shorthand.lineStyles, Text.lowerAscii (Text.trim line) = line := by decide
  exact hlines line h

/-- A keyword is trimmed and lowered where it is a text. -/
theorem finalForm_keywordValue (v : Json) : Rule.keyword.FinalForm (keywordValue v) := by
  unfold keywordValue
  split
  · exact finalForm_ofText (textForm_lowered _)
  · exact finalForm_of_text?_eq_none rfl

/-- What a box writes is under its own name or under that of a side, and lengths have no form to
keep. -/
theorem Shorthand.BoxWrite.finalForm (h : BoxWrite property n w) :
    ∃ target, (n, target) ∈ Rule.box.targets property ∧ target.FinalForm w := by
  cases h with
  | all _ => exact ⟨.box, List.mem_cons_self, fun _ _ => trivial⟩
  | side hside _ =>
    exact ⟨.length, List.mem_cons_of_mem _ (List.mem_map_of_mem hside), fun _ _ => trivial⟩

/-- Of what a border writes only its line style has a form to keep, which comes from the list of
them. -/
theorem Shorthand.BorderWrite.finalForm {side : String} (h : BorderWrite side n w) :
    ∃ target, (n, target) ∈ (Rule.border side).targets property ∧ target.FinalForm w := by
  cases h with
  | width _ => exact ⟨.length, by simp [Rule.targets], fun _ _ => trivial⟩
  | color _ _ => exact ⟨.other, by simp [Rule.targets], fun _ _ => trivial⟩
  | line _ hl => exact ⟨.keyword, by simp [Rule.targets], finalForm_ofText (textForm_of_lineStyle hl)⟩

/-- What a shadow writes ends up under names whose rules ask for no form. -/
theorem Shorthand.ShadowWrite.finalForm (h : ShadowWrite c n w) :
    ∃ target, (n, target) ∈ Rule.boxShadow.targets property ∧ target.FinalForm w := by
  cases h with
  | radius _ => exact ⟨.length, by simp [Rule.targets], fun _ _ => trivial⟩
  | _ => exact ⟨.other, by simp [Rule.targets], fun _ _ => trivial⟩

/-- **What a font writes** ends up under names with rules of their own, whose form its weight and
its family already have. -/
theorem Shorthand.FontWrite.finalForm (h : FontWrite n w) :
    ∃ target, (n, target) ∈ Rule.font.targets property ∧ target.FinalForm w := by
  cases h with
  | style => exact ⟨.fontStyle, by simp [Rule.targets], fun _ _ => trivial⟩
  | variant _ => exact ⟨.fontVariant, by simp [Rule.targets], fun _ _ => trivial⟩
  | weight hweight =>
    exact ⟨.fontWeight, by simp [Rule.targets], finalForm_ofText (textForm_of_ofWord? hweight)⟩
  | family hfamily =>
    exact ⟨.fontFamily, by simp [Rule.targets], finalForm_ofText (textForm_of_firstFamily? hfamily)⟩
  | _ => exact ⟨.length, by simp [Rule.targets], fun _ _ => trivial⟩

/-- **What a rule writes is in final form where it ends up**; that of a background depends on more
than its name. -/
theorem Rule.Write.finalForm {r : Rule} (h : r.Write c property v n w) (hr : r ≠ background) :
    ∃ target, (n, target) ∈ r.targets property ∧ target.FinalForm w := by
  cases h with
  | box h => exact h.finalForm
  | border h => exact h.finalForm
  | boxShadow h => exact h.finalForm
  | font h => exact h.finalForm
  | fontFamily h =>
    exact ⟨.fontFamily, List.mem_cons_self, finalForm_ofText (textForm_of_firstFamily? h)⟩
  | fontWeight h =>
    exact ⟨.fontWeight, List.mem_cons_self, finalForm_ofText (textForm_of_fontWeight? h)⟩
  | keyword => exact ⟨.keyword, List.mem_cons_self, finalForm_keywordValue v⟩
  | backgroundText _ => exact absurd rfl hr
  | backgroundData _ => exact absurd rfl hr
  | _ => exact ⟨_, List.mem_cons_self, fun _ _ => trivial⟩

/-- **Every write of a patch is in final form** where it ends up, that of a background included,
whose form is read off the patch as a whole. -/
theorem exists_finalForm_of_mem {r : Rule} {p : StylePatch} (h : r.patch c property v = .ok p)
    (hw : (n, w) ∈ p.writes) : ∃ target, (n, target) ∈ r.targets property ∧ target.FinalForm w := by
  have hwrite := Rule.write_of_mem h _ hw
  by_cases hr : r = .background
  · subst hr
    have htarget : (n, Rule.background) ∈ Rule.background.targets property := by
      cases hwrite <;> exact List.mem_cons_self
    exact ⟨.background, htarget, finalForm_of_backgroundPatch (eq_ok_of_mapError h) hw⟩
  · exact hwrite.finalForm hr

/-- **Compiled values are in final form**: a value comes from the patch of some entry, and the name
it is under has the rule the patch wrote it for. -/
theorem finalForm_of_get?_compile {entries : List (String × Json)}
    (h : (compile c entries).style.get? n = some w) : (Rule.ofName n).FinalForm w := by
  obtain ⟨entry, -, v, p, -, hp, hw⟩ := exists_patch_of_get?_compile h
  obtain ⟨target, htarget, hform⟩ := exists_finalForm_of_mem hp hw
  obtain ⟨hrule, -⟩ := Rule.ofName_of_mem_targets htarget
  obtain rfl : Rule.ofName n = target := hrule
  exact hform

end TextForm

/-! ## Rules keep what they admit -/

/-- **A rule keeps a value**: it reads the data of the value, and writes it again under the same name
and nothing else. -/
def Rule.Keeps (c : Config) (name : String) (v : Json) (r : Rule) : Prop :=
  ∃ w : StyleValue, r.patch c name v = .ok (.one name w) ∧ w.toJson = v

section Keeps

variable {c : Config} {name : String} {w : StyleValue}

/-- A number that is shown is finite. -/
theorem exists_finite_of_toJson_ne_null {x : Double} (h : (StyleValue.number x).toJson ≠ .null) :
    ∃ y : FiniteDouble, x = y := by
  cases x with
  | finite y => exact ⟨y, rfl⟩
  | _ => exact absurd rfl h

/-- A compound is no length, no number without a unit and no word, and passes through. -/
theorem passes_of_isCompound {v : Json} (h : v.IsCompound) :
    StyleValue.ofLength v = .json v ∧ unitless v = .json v ∧ otherValue v = .json v := by
  cases v with
  | bool _ => exact ⟨rfl, rfl, rfl⟩
  | array _ => exact ⟨rfl, rfl, rfl⟩
  | object _ => exact ⟨rfl, rfl, rfl⟩
  | _ => exact h.elim

/-- A rule with one name keeps what it reads as the same data. -/
theorem keeps_of_patch {r : Rule} {f : Json → StyleValue} {v : Json}
    (hpatch : r.patch c name v = .ok (.one name (f v))) (hread : (f v).toJson = v) :
    r.Keeps c name v :=
  ⟨f v, hpatch, hread⟩

/-- A reading that leaves numbers, texts of some kind and compounds as they are leaves their data as
it is. -/
theorem toJson_read {f : Json → StyleValue} {p : String → Prop}
    (hnumber : ∀ y : FiniteDouble, f (.number (.double y)) = .number y)
    (htext : ∀ s, p s → f (.string s) = .text s) (hdata : ∀ v : Json, v.IsCompound → f v = .json v)
    (h : w.IsNumber ∨ w.IsText p ∨ w.IsData Json.IsCompound) (hnull : w.toJson ≠ .null) :
    (f w.toJson).toJson = w.toJson := by
  rcases h with ⟨x, rfl⟩ | ⟨s, rfl, hs⟩ | ⟨v, rfl, -, hv⟩
  · obtain ⟨y, rfl⟩ := exists_finite_of_toJson_ne_null hnull
    exact congrArg StyleValue.toJson (hnumber y)
  · exact congrArg StyleValue.toJson (htext s hs)
  · exact congrArg StyleValue.toJson (hdata v hv)

/-- **A length is kept**: a text that stayed one is no length, and is read as none again. -/
theorem keeps_length (h : Rule.length.Admits c w) (hnull : w.toJson ≠ .null) :
    Rule.length.Keeps c name w.toJson := by
  refine keeps_of_patch (f := StyleValue.ofLength) rfl (toJson_read (fun _ => rfl) (fun s hs => ?_)
    (fun v hv => (passes_of_isCompound hv).1) h hnull)
  rw [StyleValue.ofLength, hs]

/-- A number without a unit is kept, and so is a text that was read as none. -/
theorem keeps_unitless (h : Rule.unitless.Admits c w) (hnull : w.toJson ≠ .null) :
    Rule.unitless.Keeps c name w.toJson := by
  refine keeps_of_patch (f := unitless) rfl (toJson_read (fun _ => rfl) (fun s hs => ?_)
    (fun v hv => (passes_of_isCompound hv).2.1) h hnull)
  rw [unitless, hs]

/-- **A value under any other name is kept**: a text that stayed one had no unit to lose, and an
offset is an object by now, which passes through. -/
theorem keeps_other (h : Rule.other.Admits c w) (hnull : w.toJson ≠ .null) :
    Rule.other.Keeps c name w.toJson := by
  refine keeps_of_patch (f := otherValue) rfl ?_
  have hread : ∀ h, (otherValue w.toJson).toJson = w.toJson := fun h =>
    toJson_read (p := fun s => Dimension.stripUnit? s.toList = none) (fun _ => rfl)
      (fun s hs => by rw [otherValue, hs]) (fun v hv => (passes_of_isCompound hv).2.2) h hnull
  rcases h with hnumber | ⟨x, y, rfl⟩ | hrest
  · exact hread (.inl hnumber)
  · rfl
  · exact hread (.inr hrest)

/-- **A box of one part is kept**: a box with more of them is written under the names of its
sides. -/
theorem keeps_box (h : w.IsLengthPart) : Rule.box.Keeps c name w.toJson := by
  rcases h with ⟨x, rfl⟩ | rfl
  · exact ⟨.number x, rfl, rfl⟩
  · have hwords : Text.words "auto".toList = ["auto".toList] := by decide
    have hpart : StyleValue.lengthPart? "auto".toList = some (.text "auto") := by decide
    have hbox : Shorthand.boxOfText name "auto".toList = .ok (.one name (.text "auto")) := by
      rw [Shorthand.boxOfText, hwords, List.find?_singleton, hpart,
        List.filterMap_cons_some hpart]
      rfl
    refine ⟨.text "auto", ?_, rfl⟩
    rw [Rule.patch, StyleValue.toJson, Shorthand.box, hbox]
    rfl

/-- A radius that is that of a pill or below the threshold is rounded to itself. -/
theorem keeps_borderRadius (h : Rule.borderRadius.Admits c w) (hnull : w.toJson ≠ .null) :
    Rule.borderRadius.Keeps c "borderRadius" w.toJson := by
  obtain ⟨x, rfl, hx⟩ := h
  obtain ⟨y, rfl⟩ := exists_finite_of_toJson_ne_null hnull
  have hround : Shorthand.roundedRadius c y = y := by
    unfold Shorthand.roundedRadius
    split
    · rename_i hreached
      rcases hx with hpill | ⟨z, hz, hbelow⟩
      · exact hpill.symm
      · rw [hz, hbelow] at hreached
        cases hreached
    · rfl
  refine ⟨.number y, ?_, rfl⟩
  have hread : Shorthand.borderRadius c (StyleValue.number y).toJson = .ok y := by
    show Except.ok (Shorthand.roundedRadius c y) = .ok (y : Double)
    rw [hround]
  rw [Rule.patch, hread]
  rfl

/-- A text is inside no wrapper. -/
theorem unwrap_string (c : Config) (t : String) :
    c.resolver.unwrap (.string t) = some (.string t) :=
  Resolver.unwrap_of_wrapped?_eq_none c.resolver rfl nofun

/-- **Variants are kept**: the items of the list are texts, so each is its own value when it is
unwrapped. -/
theorem keeps_fontVariant {items : List String} (hne : items ≠ []) :
    Rule.fontVariant.Keeps c "fontVariant" (StyleValue.list items).toJson := by
  have hitem : ∀ item : String,
      (c.resolver.unwrap (.string item)).bind Json.string? = some item := by
    intro item
    rw [unwrap_string]
    rfl
  have hread : fontVariants c.resolver (StyleValue.list items).toJson = items := by
    rw [StyleValue.toJson, fontVariants, List.filterMap_filterMap, List.filterMap_map]
    exact (List.filterMap_congr fun item _ => hitem item).trans List.filterMap_some
  refine ⟨.list items, ?_, rfl⟩
  rw [Rule.patch, hread]
  split
  · exact absurd rfl hne
  · rfl

/-- Both words of a font style are kept. -/
theorem keeps_fontStyle (h : Rule.fontStyle.Admits c w) :
    Rule.fontStyle.Keeps c "fontStyle" w.toJson := by
  rcases h with rfl | rfl
  · exact ⟨.text "italic", rfl, rfl⟩
  · exact ⟨.text "normal", rfl, rfl⟩

/-- All three words of a decoration line are kept. -/
theorem keeps_textDecoration (h : Rule.textDecoration.Admits c w) :
    Rule.textDecoration.Keeps c "textDecorationLine" w.toJson := by
  rcases h with rfl | rfl | rfl
  · exact ⟨.text "underline", rfl, rfl⟩
  · exact ⟨.text "line-through", rfl, rfl⟩
  · exact ⟨.text "none", rfl, rfl⟩

/-- **A keyword in final form is kept**, trimmed and lowered as it is; and so is what is no text. -/
theorem keeps_keyword (h : Rule.keyword.Admits c w) (hfinal : Rule.keyword.FinalForm w) :
    Rule.keyword.Keeps c name w.toJson := by
  refine keeps_of_patch (f := keywordValue) rfl ?_
  rcases h with ⟨s, rfl, -⟩ | ⟨v, rfl, hpassed, -⟩
  · have hlowered : Text.lowerAscii (Text.trim s.toList) = s.toList := hfinal s rfl
    rw [StyleValue.toJson, keywordValue, hlowered, StyleValue.ofText, String.ofList_toList]
    rfl
  · cases v with
    | string s => exact absurd rfl (hpassed.ne_string s)
    | _ => rfl

/-- **A weight in final form is kept**, as it is not empty; it is a text now, also where it came
from a number. -/
theorem keeps_fontWeight {s : String} (hne : s ≠ "") (htext : Rule.fontWeight.TextForm s.toList) :
    Rule.fontWeight.Keeps c "fontWeight" (StyleValue.text s).toJson := by
  have hlowered : Text.lowerAscii (Text.trim s.toList) = s.toList := htext
  have hempty : s.toList.isEmpty = false :=
    List.isEmpty_eq_false_iff.2 fun hnil => hne (String.toList_inj.1 hnil)
  have hread : fontWeight? (StyleValue.text s).toJson = some s.toList := by
    rw [StyleValue.toJson, fontWeight?, hlowered, hempty]
    rfl
  refine ⟨.ofText s.toList, ?_, ?_⟩
  · rw [Rule.patch, hread]
    rfl
  · rw [StyleValue.ofText, String.ofList_toList]

/-- **A rule keeps what it admits under its own name**, but for the texts of a background and of a
family. -/
theorem Rule.keeps_of_settled (hsettled : Settled name) (h : (ofName name).Admits c w)
    (hfinal : (ofName name).FinalForm w) (hnull : w.toJson ≠ .null)
    (hbackground : ofName name = background → ∀ s, w ≠ .text s) (hfamily : ofName name ≠ fontFamily) :
    (ofName name).Keeps c name w.toJson := by
  rw [Settled] at hsettled
  generalize ofName name = r at hsettled h hfinal hbackground hfamily ⊢
  have hname : ∀ {n : String} {r' : Rule}, (name, r) ∈ [(n, r')] → name = n := fun hmem =>
    congrArg Prod.fst (List.mem_singleton.1 hmem)
  cases r with
  | box => exact keeps_box h
  | length => exact keeps_length h hnull
  | unitless => exact keeps_unitless h hnull
  | other => exact keeps_other h hnull
  | keyword => exact keeps_keyword h hfinal
  | borderRadius =>
    obtain rfl := hname hsettled
    exact keeps_borderRadius h hnull
  | fontStyle =>
    obtain rfl := hname hsettled
    exact keeps_fontStyle h
  | textDecoration =>
    obtain rfl := hname hsettled
    exact keeps_textDecoration h
  | fontVariant =>
    obtain rfl := hname hsettled
    obtain ⟨items, rfl, hne⟩ := h
    exact keeps_fontVariant hne
  | fontWeight =>
    obtain rfl := hname hsettled
    obtain ⟨s, rfl, hne⟩ := h
    exact keeps_fontWeight hne (hfinal s rfl)
  | opacity | letterSpacing =>
    obtain rfl := hname hsettled
    obtain ⟨x, rfl⟩ := h
    obtain ⟨y, rfl⟩ := exists_finite_of_toJson_ne_null hnull
    exact ⟨.number y, rfl, rfl⟩
  | background =>
    obtain rfl := hname hsettled
    rcases h with ⟨s, hs, -⟩ | ⟨v, rfl, hpassed, -⟩
    · exact absurd hs (hbackground rfl s)
    · refine ⟨.json v, ?_, rfl⟩
      cases v with
      | string s => exact absurd rfl (hpassed.ne_string s)
      | _ => rfl
  | fontFamily => exact absurd rfl hfamily
  | _ => exact h.elim

end Keeps

end ScreenLayout
