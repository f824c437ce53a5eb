import ScreenLayout.Proofs.Number.Written
import ScreenLayout.Proofs.Style.FontWords
import ScreenLayout.Proofs.Style.RuleWrites
import ScreenLayout.Proofs.Style.Token
import ScreenLayout.Proofs.Value.Wrapper

/-!
# Proofs/Style/Canonical — the canonical form of compiled styles

Whatever a dictionary holds, its compiled style has no shorthand left, and the value at each name has
the form that the rule of the name admits: a length is a number, or what could not be read as one.
One rule may write under the name of another, so the form is asked of every write of every rule.

* `Rule.Admits` — the form of a value under a name with a rule.
* `Rule.Write.admitted` — every write of a rule is admitted where it ends up.
* `Style.Canonical`, `compile_canonical` — what that says of a compiled style, name by name.
-/

namespace ScreenLayout

/-! ## Data passed on -/

/-- **Data passed on as it came**: neither `null` nor a text, and inside no wrapper. -/
structure Json.PassedOn (v : Json) : Prop where
  ne_null : v ≠ .null
  ne_string : ∀ s, v ≠ .string s
  not_wrapped : v.wrapped? = none

/-- A boolean, an array or an object. -/
def Json.IsCompound : Json → Prop
  | .bool _ | .array _ | .object _ => True
  | _ => False

/-- What was unwrapped and is no text is passed on. -/
theorem Json.passedOn_of_unwrap {r : Resolver} {u v : Json} (h : r.unwrap u = some v)
    (hstring : ∀ s, v ≠ .string s) : v.PassedOn :=
  ⟨Resolver.ne_null_of_unwrap h, hstring, Resolver.wrapped?_of_unwrap h⟩

/-- Data that is passed on and is no number is a compound: `null` is never passed on, and a text has
been read. -/
theorem Json.PassedOn.isCompound {v : Json} (h : v.PassedOn) (hnumber : ∀ n, v ≠ .number n) :
    v.IsCompound := by
  cases v with
  | null => exact absurd rfl h.ne_null
  | string s => exact absurd rfl (h.ne_string s)
  | number n => exact absurd rfl (hnumber n)
  | _ => trivial

/-! ## Below a threshold -/

/-- Strictly below: nothing lies below or above `nan`. -/
def Double.lt (x y : Double) : Bool := Double.le x y && !Double.le y x

/-- **What does not reach a threshold lies below it.** -/
theorem Double.lt_of_le_eq_false {t : Double} (ht : t ≠ .nan) {y : FiniteDouble}
    (h : Double.le t y = false) : Double.lt y t = true := by
  have hle : Double.le y t = true := by
    cases t with
    | nan => exact absurd rfl ht
    | infinite negative =>
      cases negative with
      | true => cases h
      | false => rfl
    | finite x =>
      have hlt : ¬ x.signed ≤ y.signed := of_decide_eq_false h
      exact decide_eq_true (Int.le_of_lt (Int.not_le.1 hlt))
  rw [Double.lt, hle, h]
  rfl

/-! ## The form of a value -/

namespace StyleValue

def IsNumber (w : StyleValue) : Prop := ∃ x, w = .number x

/-- A text of some kind. -/
def IsText (p : String → Prop) (w : StyleValue) : Prop := ∃ s, w = .text s ∧ p s

/-- Data of some kind, passed on. -/
def IsData (p : Json → Prop) (w : StyleValue) : Prop := ∃ v, w = .json v ∧ v.PassedOn ∧ p v

end StyleValue

/-- **The form of a value** under a name with a rule; the rules left out have no settled name. -/
def Rule.Admits (c : Config) (w : StyleValue) : Rule → Prop
  | box => w.IsLengthPart
  | length =>
    w.IsNumber ∨ w.IsText (fun s => Dimension.parse? s.toList = none) ∨ w.IsData Json.IsCompound
  | borderRadius => ∃ x, w = .number x ∧
    (x = c.pillRadius ∨ ∃ y : FiniteDouble, x = y ∧ Double.le c.roundedThreshold y = false)
  | background | keyword => w.IsText (fun _ => True) ∨ w.IsData (fun _ => True)
  | opacity | letterSpacing => w.IsNumber
  | fontFamily | fontWeight => w.IsText (· ≠ "")
  | fontVariant => ∃ items, w = .list items ∧ items ≠ []
  | fontStyle => w = .text "italic" ∨ w = .text "normal"
  | textDecoration => w = .text "underline" ∨ w = .text "line-through" ∨ w = .text "none"
  | unitless =>
    w.IsNumber ∨ w.IsText (fun s => unitlessNumber? s.toList = none) ∨ w.IsData Json.IsCompound
  | other =>
    w.IsNumber ∨ (∃ x y, w = .offset x y)
      ∨ w.IsText (fun s => Dimension.stripUnit? s.toList = none) ∨ w.IsData Json.IsCompound
  | unsupported | lengthAs _ | border _ | opacityPercent | boxShadow | font | objectFit => False

/-! ## What the rules write is admitted -/

/-- What is no dimension has no unit to lose. -/
theorem Dimension.stripUnit?_eq_none {cs : List Char} (h : Dimension.parse? cs = none) :
    Dimension.stripUnit? cs = none := by
  rw [stripUnit?, h, Option.bind_none]

/-- Data that is no number is a compound when it is passed on. -/
theorem isData_of_unwrap {r : Resolver} {u v : Json} (h : r.unwrap u = some v)
    (hnumber : ∀ n, v ≠ .number n) (hstring : ∀ s, v ≠ .string s) :
    (StyleValue.json v).IsData Json.IsCompound :=
  ⟨v, rfl, Json.passedOn_of_unwrap h hstring, (Json.passedOn_of_unwrap h hstring).isCompound hnumber⟩

section Values

variable {c : Config} {r : Resolver} {u v : Json} (h : r.unwrap u = some v)
include h

/-- A length is a number, a text that is none, or a compound. -/
theorem admits_ofLength : Rule.length.Admits c (.ofLength v) := by
  unfold StyleValue.ofLength
  split
  · exact .inl ⟨_, rfl⟩
  · split
    · exact .inl ⟨_, rfl⟩
    · rename_i hs
      exact .inr (.inl ⟨_, rfl, hs⟩)
  · rename_i hnumber hstring
    exact .inr (.inr (isData_of_unwrap h hnumber hstring))

/-- A number without a unit is one, or a text that cannot be read so, or a compound. -/
theorem admits_unitless : Rule.unitless.Admits c (unitless v) := by
  unfold unitless
  split
  · exact .inl ⟨_, rfl⟩
  · split
    · exact .inl ⟨_, rfl⟩
    · rename_i hs
      exact .inr (.inl ⟨_, rfl, hs⟩)
  · rename_i hnumber hstring
    exact .inr (.inr (isData_of_unwrap h hnumber hstring))

/-- A value without a rule is a number, a text without a unit, or a compound. -/
theorem admits_otherValue : Rule.other.Admits c (otherValue v) := by
  unfold otherValue
  split
  · split
    · exact .inl ⟨_, rfl⟩
    · rename_i hs
      exact .inr (.inr (.inl ⟨_, rfl, hs⟩))
  · rename_i hstring
    unfold StyleValue.ofLength
    split
    · exact .inl ⟨_, rfl⟩
    · rename_i s
      exact absurd rfl (hstring s)
    · rename_i hnumber _
      exact .inr (.inr (.inr (isData_of_unwrap h hnumber hstring)))

/-- A keyword is a text, or data that is passed on. -/
theorem admits_keywordValue : Rule.keyword.Admits c (keywordValue v) := by
  unfold keywordValue
  split
  · exact .inl ⟨_, rfl, trivial⟩
  · rename_i hstring
    exact .inr ⟨v, rfl, Json.passedOn_of_unwrap h hstring, trivial⟩

end Values

/-- A text of characters, by its characters. -/
theorem isText_ofText {p : String → Prop} {cs : List Char} (h : p (String.ofList cs)) :
    (StyleValue.ofText cs).IsText p :=
  ⟨String.ofList cs, rfl, h⟩

theorem ofList_ne_empty {cs : List Char} (h : cs ≠ []) : String.ofList cs ≠ "" :=
  fun heq => h (String.ofList_injective heq)

/-- The text of a colour has no unit to lose. -/
theorem admits_color {c : Config} {t : Token} {cs : List Char} (ht : t ∈ Token.scan cs)
    (hcolor : t.isColor) : Rule.other.Admits c (.ofText t.text) := by
  refine .inr (.inr (.inl (isText_ofText ?_)))
  rw [String.toList_ofList]
  exact Dimension.stripUnit?_eq_none (Token.parse?_text_of_isColor ht hcolor)

/-- A part of a box is a length under the name of its side: `auto` is no dimension. -/
theorem admits_lengthPart {c : Config} {w : StyleValue} (h : w.IsLengthPart) :
    Rule.length.Admits c w := by
  rcases h with ⟨x, rfl⟩ | rfl
  · exact .inl ⟨x, rfl⟩
  · exact .inr (.inl ⟨"auto", rfl, by decide⟩)

/-- A weight is not empty: a number has a digit when it is written, and an empty word is refused. -/
theorem fontWeight?_ne_nil {v : Json} {weight : List Char} (h : fontWeight? v = some weight) :
    weight ≠ [] := by
  unfold fontWeight? at h
  split at h
  · rename_i n
    obtain rfl := Option.some.inj h
    exact n.value.plain_ne_nil
  · dsimp only at h
    split at h
    · cases h
    · rename_i hempty
      obtain rfl := Option.some.inj h
      rintro hnil
      rw [hnil] at hempty
      exact hempty rfl
  · cases h

/-- A decoration line is one of three words, whatever the text mentions. -/
theorem admits_decorationLine {c : Config} (v : Json) :
    Rule.textDecoration.Admits c (.text (decorationLine v)) := by
  unfold decorationLine
  dsimp only
  split
  · exact .inl rfl
  · split
    · exact .inr (.inl rfl)
    · exact .inr (.inr rfl)

/-- A font style is one of two words, also for a value that is no text. -/
theorem admits_fontStyleWord {c : Config} (v : Json) :
    Rule.fontStyle.Admits c (.text (fontStyleWord v)) := by
  unfold fontStyleWord
  split
  · split
    · exact .inl rfl
    · exact .inr rfl
  · exact .inr rfl

/-- No way to fill a frame has a unit. -/
theorem admits_resizeMode {c : Config} (v : Json) :
    Rule.other.Admits c (.text (resizeMode v)) := by
  have hunit : ∀ mode ∈ ["cover", "stretch", "contain"], Dimension.stripUnit? mode.toList = none := by
    decide
  refine .inr (.inr (.inl ⟨resizeMode v, rfl, hunit _ ?_⟩))
  unfold resizeMode
  split
  · dsimp only
    split
    · decide
    · split <;> decide
  · decide

namespace Shorthand

variable {c : Config} {property side n : String} {w : StyleValue}

/-- **What a box writes is admitted**: one value under the name of the box, several under those of
its sides, which are lengths. -/
theorem BoxWrite.admitted (h : BoxWrite property n w) :
    ∃ r, (n, r) ∈ Rule.box.targets property ∧ r.Admits c w := by
  cases h with
  | all hw => exact ⟨.box, List.mem_cons_self, hw⟩
  | side hside hw =>
    exact ⟨.length, List.mem_cons_of_mem _ (List.mem_map_of_mem hside), admits_lengthPart hw⟩

/-- **What a border writes is admitted**: its width as a length, its line style as a keyword, and
its colour under a name without a rule. -/
theorem BorderWrite.admitted (h : BorderWrite side n w) :
    ∃ r, (n, r) ∈ (Rule.border side).targets property ∧ r.Admits c w := by
  cases h with
  | width x => exact ⟨.length, by simp [Rule.targets], .inl ⟨x, rfl⟩⟩
  | color ht hcolor => exact ⟨.other, by simp [Rule.targets], admits_color ht hcolor⟩
  | line => exact ⟨.keyword, by simp [Rule.targets], .inl (isText_ofText trivial)⟩

/-- **What a shadow writes is admitted**: its radius as a length, and all else under names without a
rule. -/
theorem ShadowWrite.admitted (h : ShadowWrite c n w) :
    ∃ r, (n, r) ∈ Rule.boxShadow.targets property ∧ r.Admits c w := by
  cases h with
  | offset x y => exact ⟨.other, by simp [Rule.targets], .inr (.inl ⟨x, y, rfl⟩)⟩
  | radius x => exact ⟨.length, by simp [Rule.targets], .inl ⟨x, rfl⟩⟩
  | opacity => exact ⟨.other, by simp [Rule.targets], .inl ⟨c.shadowOpacity, rfl⟩⟩
  | color ht hcolor => exact ⟨.other, by simp [Rule.targets], admits_color ht hcolor⟩
  | elevation x => exact ⟨.other, by simp [Rule.targets], .inl ⟨x, rfl⟩⟩

/-- **What a font writes is admitted** by the rules of its parts, each of which has one of its
own. -/
theorem FontWrite.admitted (h : FontWrite n w) :
    ∃ r, (n, r) ∈ Rule.font.targets property ∧ r.Admits c w := by
  cases h with
  | style => exact ⟨.fontStyle, by simp [Rule.targets], .inl rfl⟩
  | variant k => exact ⟨.fontVariant, by simp [Rule.targets], _, rfl, nofun⟩
  | weight hweight =>
    have hne := ofList_ne_empty (ofWord?_eq_weight_iff.1 hweight).1.isModifier.isWord.1
    exact ⟨.fontWeight, by simp [Rule.targets], isText_ofText hne⟩
  | size x => exact ⟨.length, by simp [Rule.targets], .inl ⟨x, rfl⟩⟩
  | lineHeight x => exact ⟨.length, by simp [Rule.targets], .inl ⟨x, rfl⟩⟩
  | family hfamily =>
    have hne := ofList_ne_empty (firstFamily?_ne_nil hfamily)
    exact ⟨.fontFamily, by simp [Rule.targets], isText_ofText hne⟩

end Shorthand

/-- **Every write of a rule is admitted where it ends up.** -/
theorem Rule.Write.admitted {c : Config} {property : String} {r : Resolver} {u v : Json}
    (hv : r.unwrap u = some v) {rule : Rule} {n : String} {w : StyleValue}
    (h : rule.Write c property v n w) :
    ∃ target, (n, target) ∈ rule.targets property ∧ target.Admits c w := by
  cases h with
  | box h => exact h.admitted
  | border h => exact h.admitted
  | boxShadow h => exact h.admitted
  | font h => exact h.admitted
  | lengthAs name => exact ⟨.length, List.mem_cons_self, admits_ofLength hv⟩
  | borderRadius h =>
    exact ⟨.borderRadius, List.mem_cons_self, _, rfl, Shorthand.borderRadius_cases h⟩
  | backgroundText s => exact ⟨.background, List.mem_cons_self, .inl ⟨s, rfl, trivial⟩⟩
  | backgroundData hstring =>
    have hpassed := Json.passedOn_of_unwrap hv hstring
    exact ⟨.background, List.mem_cons_self, .inr ⟨v, rfl, hpassed, trivial⟩⟩
  | opacity x => exact ⟨.opacity, List.mem_cons_self, x, rfl⟩
  | opacityPercent x => exact ⟨.opacity, List.mem_cons_self, ofPercent x, rfl⟩
  | fontFamily h =>
    have hne := ofList_ne_empty (Shorthand.firstFamily?_ne_nil h)
    exact ⟨.fontFamily, List.mem_cons_self, isText_ofText hne⟩
  | fontWeight h =>
    have hne := ofList_ne_empty (fontWeight?_ne_nil h)
    exact ⟨.fontWeight, List.mem_cons_self, isText_ofText hne⟩
  | fontVariant h => exact ⟨.fontVariant, List.mem_cons_self, _, rfl, h⟩
  | fontStyle => exact ⟨.fontStyle, List.mem_cons_self, admits_fontStyleWord v⟩
  | textDecoration => exact ⟨.textDecoration, List.mem_cons_self, admits_decorationLine v⟩
  | letterSpacing _ => exact ⟨.letterSpacing, List.mem_cons_self, _, rfl⟩
  | objectFit => exact ⟨.other, List.mem_cons_self, admits_resizeMode v⟩
  | keyword => exact ⟨.keyword, List.mem_cons_self, admits_keywordValue hv⟩
  | length => exact ⟨.length, List.mem_cons_self, admits_ofLength hv⟩
  | unitless => exact ⟨.unitless, List.mem_cons_self, admits_unitless hv⟩
  | other => exact ⟨.other, List.mem_cons_self, admits_otherValue hv⟩

/-- **A compiled value is settled**: its name is one its own rule writes under, and that rule admits
it. -/
theorem settled_and_admits_of_get?_compile {c : Config} {entries : List (String × Json)}
    {name : String} {w : StyleValue} (h : (compile c entries).style.get? name = some w) :
    Rule.Settled name ∧ (Rule.ofName name).Admits c w := by
  obtain ⟨entry, -, v, hv, hwrite⟩ := exists_write_of_get?_compile h
  obtain ⟨target, htarget, hadmits⟩ := hwrite.admitted hv
  obtain ⟨hrule, hsettled⟩ := Rule.ofName_of_mem_targets htarget
  obtain rfl : Rule.ofName name = target := hrule
  exact ⟨hsettled, hadmits⟩

/-! ## The canonical form, name by name -/

/-- The names that are only ever read: shorthands, aliases, and what has no counterpart on a
screen. -/
def Style.shorthandNames : List String :=
  ["border", "borderTop", "borderRight", "borderBottom", "borderLeft", "background",
   "backgroundOpacity", "boxShadow", "font", "paddingX", "paddingY", "marginX", "marginY",
   "textDecoration", "objectFit", "gap", "rowGap", "columnGap"]

/-- No rule writes under the name of a shorthand, an alias, or what has no counterpart on a
screen. -/
theorem Rule.not_settled_of_mem_shorthandNames :
    ∀ name ∈ Style.shorthandNames, ¬ Settled name := by
  decide +kernel

theorem Rule.ofName_of_mem_lengthNames : ∀ name ∈ lengthNames, ofName name = length := by
  decide +kernel

theorem Rule.mem_keywordNames_of_table :
    ∀ e ∈ table, e.2 = keyword → e.1 ∈ keywordNames := by
  decide +kernel

/-- Of the two names of a background the one that is written is `backgroundColor`. -/
theorem Rule.settled_background {name : String} (hrule : ofName name = background)
    (h : Settled name) : name = "backgroundColor" := by
  rw [Settled, hrule] at h
  exact congrArg Prod.fst (List.mem_singleton.1 h)

theorem Rule.mem_keywordNames_of_ofName {name : String} (h : ofName name = keyword) :
    name ∈ keywordNames := by
  rcases eq_other_or_mem_table name with hother | hmem
  · rw [h] at hother
    cases hother
  · exact mem_keywordNames_of_table _ hmem h

/-- Where a rule admits data at all, the data was passed on, and only keywords and background colours
may be numbers. -/
theorem Rule.Admits.data {c : Config} {r : Rule} {v : Json} (h : r.Admits c (.json v)) :
    v.PassedOn ∧ (v.IsCompound ∨ r = keyword ∨ r = background) := by
  have hdata : ∀ {p : Json → Prop}, (StyleValue.json v).IsData p → v.PassedOn ∧ p v := by
    rintro p ⟨_, heq, hpassed, hp⟩
    cases heq
    exact ⟨hpassed, hp⟩
  cases r with
  | length | unitless =>
    rcases h with ⟨x, hx⟩ | ⟨s, hs, -⟩ | h
    · cases hx
    · cases hs
    · exact ⟨(hdata h).1, .inl (hdata h).2⟩
  | other =>
    rcases h with ⟨x, hx⟩ | ⟨x, y, hxy⟩ | ⟨s, hs, -⟩ | h
    · cases hx
    · cases hxy
    · cases hs
    · exact ⟨(hdata h).1, .inl (hdata h).2⟩
  | keyword =>
    rcases h with ⟨s, hs, -⟩ | h
    · cases hs
    · exact ⟨(hdata h).1, .inr (.inl rfl)⟩
  | background =>
    rcases h with ⟨s, hs, -⟩ | h
    · cases hs
    · exact ⟨(hdata h).1, .inr (.inr rfl)⟩
  | box =>
    rcases h with ⟨x, hx⟩ | hauto
    · cases hx
    · cases hauto
  | borderRadius => obtain ⟨x, hx, -⟩ := h; cases hx
  | opacity | letterSpacing => obtain ⟨x, hx⟩ := h; cases hx
  | fontFamily | fontWeight => obtain ⟨s, hs, -⟩ := h; cases hs
  | fontVariant => obtain ⟨items, hitems, -⟩ := h; cases hitems
  | fontStyle => rcases h with h | h <;> cases h
  | textDecoration => rcases h with h | h | h <;> cases h
  | _ => exact h.elim

/-- **A style in canonical form**: no shorthand is left, every property has a form of its own, and
whatever is passed on could not have been read. -/
structure Style.Canonical (c : Config) (s : Style) : Prop where
  /-- No shorthand is left. -/
  no_shorthand : ∀ name ∈ shorthandNames, s.get? name = none
  /-- A length is a number, a text that is no length, or a boolean, an array or an object. -/
  length : ∀ name ∈ Rule.lengthNames, ∀ w, s.get? name = some w →
    (∃ x, w = .number x) ∨ (∃ t, w = .text t ∧ Dimension.parse? t.toList = none) ∨
      ∃ v, w = .json v ∧ v.IsCompound
  /-- Padding and margin are a number or `auto`. -/
  box : ∀ name ∈ ["padding", "margin"], ∀ w, s.get? name = some w →
    (∃ x, w = .number x) ∨ w = .text "auto"
  number : ∀ name ∈ ["opacity", "letterSpacing", "borderRadius"], ∀ w, s.get? name = some w →
    ∃ x, w = .number x
  /-- A radius is that of a pill or below the threshold. -/
  radius : c.roundedThreshold ≠ .nan → ∀ x, s.get? "borderRadius" = some (.number x) →
    x = c.pillRadius ∨ Double.lt x c.roundedThreshold
  font_text : ∀ name ∈ ["fontFamily", "fontWeight"], ∀ w, s.get? name = some w →
    ∃ t, w = .text t ∧ t ≠ ""
  font_variant : ∀ w, s.get? "fontVariant" = some w → ∃ items, w = .list items ∧ items ≠ []
  font_style : ∀ w, s.get? "fontStyle" = some w → w = .text "italic" ∨ w = .text "normal"
  decoration : ∀ w, s.get? "textDecorationLine" = some w →
    w = .text "underline" ∨ w = .text "line-through" ∨ w = .text "none"
  /-- A property without a rule has no unit left to lose. -/
  no_unit : ∀ name, name ∉ Rule.table.map Prod.fst → ∀ t, s.get? name = some (.text t) →
    Dimension.stripUnit? t.toList = none
  /-- Data is passed on unwrapped, and only keywords and the background colour may be numbers. -/
  data : ∀ name v, s.get? name = some (.json v) →
    v.PassedOn ∧ (v.IsCompound ∨ name ∈ Rule.keywordNames ∨ name = "backgroundColor")

theorem admits_of_get?_compile {c : Config} {entries : List (String × Json)} {name : String}
    {w : StyleValue} {r : Rule} (hrule : Rule.ofName name = r)
    (h : (compile c entries).style.get? name = some w) : r.Admits c w :=
  hrule ▸ (settled_and_admits_of_get?_compile h).2

/-- **Every compiled style is in canonical form.** -/
theorem compile_canonical (c : Config) (entries : List (String × Json)) :
    (compile c entries).style.Canonical c where
  no_shorthand := by
    intro name hname
    refine Option.eq_none_iff_forall_ne_some.2 fun w h => ?_
    exact Rule.not_settled_of_mem_shorthandNames name hname (settled_and_admits_of_get?_compile h).1
  length := by
    intro name hname w h
    rcases admits_of_get?_compile (Rule.ofName_of_mem_lengthNames name hname) h with
      hx | ht | ⟨v, hv, -, hcompound⟩
    · exact .inl hx
    · exact .inr (.inl ht)
    · exact .inr (.inr ⟨v, hv, hcompound⟩)
  box := by
    intro name hname w h
    have hrule : ∀ name ∈ ["padding", "margin"], Rule.ofName name = .box := by decide +kernel
    rcases admits_of_get?_compile (hrule name hname) h with ⟨x, hx⟩ | hauto
    · exact .inl ⟨x, hx⟩
    · exact .inr hauto
  number := by
    intro name hname w h
    simp only [List.mem_cons, List.not_mem_nil, or_false] at hname
    rcases hname with rfl | rfl | rfl
    · exact admits_of_get?_compile (r := .opacity) (by decide +kernel) h
    · exact admits_of_get?_compile (r := .letterSpacing) (by decide +kernel) h
    · obtain ⟨x, hx, -⟩ := admits_of_get?_compile (r := .borderRadius) (by decide +kernel) h
      exact ⟨x, hx⟩
  radius := by
    intro ht x h
    obtain ⟨y, hy, hcases⟩ := admits_of_get?_compile (r := .borderRadius) (by decide +kernel) h
    obtain rfl := StyleValue.number.inj hy
    rcases hcases with hpill | ⟨z, rfl, hbelow⟩
    · exact .inl hpill
    · exact .inr (Double.lt_of_le_eq_false ht hbelow)
  font_text := by
    intro name hname w h
    simp only [List.mem_cons, List.not_mem_nil, or_false] at hname
    rcases hname with rfl | rfl
    · exact admits_of_get?_compile (r := .fontFamily) (by decide +kernel) h
    · exact admits_of_get?_compile (r := .fontWeight) (by decide +kernel) h
  font_variant := fun _ h => admits_of_get?_compile (r := .fontVariant) (by decide +kernel) h
  font_style := fun _ h => admits_of_get?_compile (r := .fontStyle) (by decide +kernel) h
  decoration := fun _ h => admits_of_get?_compile (r := .textDecoration) (by decide +kernel) h
  no_unit := by
    intro name hname t h
    rcases admits_of_get?_compile (Rule.ofName_eq_other_of_not_mem hname) h with
      ⟨x, hx⟩ | ⟨x, y, hxy⟩ | ⟨_, ht, hunit⟩ | ⟨v, hv, -⟩
    · cases hx
    · cases hxy
    · cases ht; exact hunit
    · cases hv
  data := by
    intro name v h
    obtain ⟨hsettled, hvalue⟩ := settled_and_admits_of_get?_compile h
    obtain ⟨hpassed, hform⟩ := hvalue.data
    refine ⟨hpassed, ?_⟩
    rcases hform with hcompound | hkeyword | hbackground
    · exact .inl hcompound
    · exact .inr (.inl (Rule.mem_keywordNames_of_ofName hkeyword))
    · exact .inr (.inr (Rule.settled_background hbackground hsettled))

end ScreenLayout
