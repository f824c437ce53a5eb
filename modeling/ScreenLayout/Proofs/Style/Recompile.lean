import ScreenLayout.Proofs.Style.Data
import ScreenLayout.Proofs.Style.FinalForm
import ScreenLayout.Proofs.Style.PropertyName

/-!
# Proofs/Style/Recompile — compiled styles compiled again

The data of a compiled style is a dictionary again.  Each member is read under its own name and writes
nothing under another, so the style is the same again iff every member stays, which is a question for
one rule at a time.  All rules keep what they admit, with three exceptions: a number that was shown as
`null` is gone, a background colour may hold a gradient once more, and a family may have quotes left.

* `member_cases` — what a rule makes of a member of a compiled style.
* `sameMembers_iff_stays` — the style is the same again iff every member stays.
* `recompile_iff` — the styles that are the same when they are compiled again.
-/

namespace ScreenLayout

/-- **Two objects with the same members**, in whatever order. -/
structure Json.SameMembers (u v : Json) : Prop where
  left : u.isObject
  right : v.isObject
  fields : ∀ key, u.field? key = v.field? key

/-- **An entry that stays**: compiled alone it leaves its own value under its own name. -/
def Stays (c : Config) (entry : String × Json) : Prop :=
  ((styleAlone c entry).get? entry.1).map StyleValue.toJson = some entry.2

/-- **A style that can be read again**: no number is shown as `null`, a background colour that holds a
gradient is taken for a plain colour, and a family has no quotes at its ends. -/
structure Style.Rereadable (s : Style) : Prop where
  no_null : ∀ name, s.toJson.field? name ≠ some .null
  background : ∀ t, s.get? "backgroundColor" = some (.text t) → Gradient.isGradient t.toList →
    Gradient.parse? t.toList = none ∧ Token.firstColor? t.toList = some t.toList
  family : ∀ t, s.get? "fontFamily" = some (.text t) →
    (∀ q ∈ t.toList.head?, Shorthand.isQuote q = false) ∧
      ∀ q ∈ t.toList.getLast?, Shorthand.isQuote q = false

/-! ## Families -/

/-- **A single family stays iff it has no quote at an end.** -/
theorem Shorthand.firstFamily?_eq_self_iff {cs : List Char} (hne : cs ≠ [])
    (hform : Rule.fontFamily.TextForm cs) : firstFamily? cs = some cs ↔
      (∀ q ∈ cs.head?, isQuote q = false) ∧ ∀ q ∈ cs.getLast?, isQuote q = false := by
  obtain ⟨htrim, hcomma⟩ := hform
  have hentry : Text.trim (cs.takeWhile (· != ',')) = cs := by
    have hall : cs.takeWhile (· != ',') = cs :=
      List.takeWhile_eq_self_iff.2 fun d hd => bne_iff_ne.2 fun heq => hcomma (heq ▸ hd)
    rw [hall, htrim]
  rw [firstFamily?, hentry, ← Text.dropWhile_eq_self_iff, ← Text.dropEndWhile_eq_self_iff]
  constructor
  · intro h
    -- nothing may get shorter, so neither end loses a quote
    have hself := Option.some.inj (Option.ite_none_left_eq_some.1 h).2
    have hlen := congrArg List.length hself
    have htrimmed := Text.length_trim_le (Text.dropEndWhile isQuote (cs.dropWhile isQuote))
    have hback := Text.length_dropEndWhile_le isQuote (cs.dropWhile isQuote)
    have hfront : cs.dropWhile isQuote = cs :=
      (List.dropWhile_sublist isQuote).eq_of_length_le (by omega)
    rw [hfront] at hlen htrimmed
    exact ⟨hfront, (List.rdropWhile_prefix isQuote cs).eq_of_length_le (hlen.symm.trans_le htrimmed)⟩
  · rintro ⟨hfront, hback⟩
    rw [hfront, hback, htrim, if_neg (Bool.eq_false_iff.1 (List.isEmpty_eq_false_iff.2 hne))]

/-! ## One entry -/

section Entry

variable {c : Config} {name : String} {v : Json}

/-- An entry under a canonical name writes what the rule of the name writes. -/
theorem styleAlone_of_patch (hname : canonicalName name = name) (hv : c.resolver.unwrap v = some v)
    {p : StylePatch} (hp : (Rule.ofName name).patch c name v = .ok p) :
    styleAlone c (name, v) = Style.empty.apply p := by
  have hpatch : (compileEntry c (name, v)).patch = p :=
    patch_compileEntry_of_ok hv (by rw [hname]; exact hp)
  rw [styleAlone_eq, hpatch]

/-- What a rule keeps stays. -/
theorem stays_of_keeps (hname : canonicalName name = name) (hv : c.resolver.unwrap v = some v)
    (h : (Rule.ofName name).Keeps c name v) : Stays c (name, v) := by
  obtain ⟨w, hp, rfl⟩ := h
  rw [Stays, styleAlone_of_patch hname hv hp, get?_apply_one, if_pos rfl]
  rfl

/-- A value of `null` writes nothing. -/
theorem styleAlone_null (c : Config) (name : String) : styleAlone c (name, .null) = Style.empty := by
  have hnull : c.resolver.unwrap .null = none := by
    rw [Resolver.unwrap, Resolver.peel, Resolver.peelWithin_of_wrapped?_eq_none rfl]
    rfl
  refine styleAlone_eq_empty ?_
  simp only [compileEntry, hnull]

theorem not_stays_of_empty {entry : String × Json} (h : styleAlone c entry = Style.empty) :
    ¬ Stays c entry := by
  rw [Stays, h]
  exact fun hsome => Option.some_ne_none _ hsome.symm

/-- A text that its rule writes as one text stays iff it is that text. -/
theorem stays_iff_of_patch {t : String} {cs : List Char} {p : StylePatch}
    (hname : canonicalName name = name)
    (hp : (Rule.ofName name).patch c name (.string t) = .ok p)
    (hwrites : p.writes = [(name, .ofText cs)]) : Stays c (name, .string t) ↔ cs = t.toList := by
  have hlast : Properties.lastWrite? p.writes name = some (.ofText cs) := by
    rw [hwrites]
    exact List.lookup_cons_self
  rw [Stays, styleAlone_of_patch hname (unwrap_string c t) hp, Style.get?_apply, hlast,
    ← String.ofList_inj, String.ofList_toList]
  simp [StyleValue.ofText, StyleValue.toJson]

/-- A text that its rule refuses does not stay. -/
theorem not_stays_of_refused {t : String} {error : StyleError} (hname : canonicalName name = name)
    (hp : (Rule.ofName name).patch c name (.string t) = .error error) :
    ¬ Stays c (name, .string t) := by
  refine not_stays_of_empty (styleAlone_eq_empty ?_)
  simp only [compileEntry, hname, unwrap_string, hp]

/-- **What stays sets no gradient**: the first colour of a gradient is a part of its text, and
shorter. -/
theorem gradient_eq_none_of_stays {entry : String × Json} (h : Stays c entry) :
    (styleAlone c entry).gradient = none := by
  rw [gradient_styleAlone]
  rcases patch_compileEntry_cases c entry with ⟨v, hv, hp⟩ | hnone
  · rcases Rule.patch_cases hp with hplain | ⟨-, s, g, rfl, hread, hg⟩ | ⟨_, _, -, -, -, hnone⟩
    · rw [hplain.no_gradient]
    · obtain ⟨angle, colors, rfl, hne, -⟩ := Gradient.exists_of_parse? hread
      obtain ⟨color, colors, rfl⟩ := List.exists_cons_of_ne_nil hne
      have hshort := Gradient.length_lt_of_mem_colors hread List.mem_cons_self
      have hlast : Properties.lastWrite? (compileEntry c entry).patch.writes entry.1
          = if entry.1 = "backgroundColor" then some (.text (String.ofList color)) else none := by
        rw [hg]
        exact Properties.lookup_cons_eq_ite "backgroundColor" _ [] entry.1
      rw [Stays, get?_styleAlone, hlast] at h
      split at h
      · -- the value is the colour itself, so the text the gradient was read from is no longer
        have hvalue : entry.2 = .string (String.ofList color) := (Option.some.inj h).symm
        rw [hvalue, unwrap_string] at hv
        obtain rfl := Json.string.inj (Option.some.inj hv)
        exact absurd (hshort.trans_le (Text.length_trim_le _)) (Nat.lt_irrefl _)
      · cases h
    · rw [hnone]
  · rw [hnone]

/-- **A background text stays iff it holds no gradient**, or one that cannot be read and is itself its
first colour. -/
theorem stays_background_iff {t : String} (htrim : Text.trim t.toList = t.toList) :
    Stays c ("backgroundColor", .string t) ↔ (Gradient.isGradient t.toList →
      Gradient.parse? t.toList = none ∧ Token.firstColor? t.toList = some t.toList) := by
  have hname : canonicalName "backgroundColor" = "backgroundColor" :=
    canonicalName_of_dashless (by decide)
  have hpatch : (Rule.ofName "backgroundColor").patch c "backgroundColor" (.string t)
      = (backgroundPatch (.string t)).mapError (.invalidValue "backgroundColor") := by
    have hrule : Rule.ofName "backgroundColor" = .background := by decide +kernel
    rw [hrule]
    rfl
  rw [backgroundPatch, htrim] at hpatch
  cases hgradient : Gradient.isGradient t.toList with
  | false =>
    rw [hgradient] at hpatch
    exact iff_of_true ((stays_iff_of_patch hname hpatch rfl).2 rfl)
      fun h => absurd h Bool.false_ne_true
  | true =>
    rw [hgradient] at hpatch
    cases hread : Gradient.parse? t.toList with
    | some g =>
      rw [hread] at hpatch
      refine iff_of_false (fun hstays => ?_) fun h => Option.some_ne_none _ (h rfl).1
      have hnone := gradient_eq_none_of_stays hstays
      rw [styleAlone_of_patch hname (unwrap_string c t) hpatch] at hnone
      cases hnone
    | none =>
      rw [hread] at hpatch
      cases hfirst : Token.firstColor? t.toList with
      | some color =>
        rw [hfirst] at hpatch
        simp [stays_iff_of_patch hname hpatch rfl]
      | none =>
        rw [hfirst] at hpatch
        exact iff_of_false (not_stays_of_refused hname hpatch)
          fun h => Option.some_ne_none _ (h rfl).2.symm

/-- **A family stays iff it has no quote at an end.** -/
theorem stays_family_iff {t : String} (hne : t ≠ "") (hform : Rule.fontFamily.TextForm t.toList) :
    Stays c ("fontFamily", .string t) ↔ (∀ q ∈ t.toList.head?, Shorthand.isQuote q = false) ∧
      ∀ q ∈ t.toList.getLast?, Shorthand.isQuote q = false := by
  have hname : canonicalName "fontFamily" = "fontFamily" := canonicalName_of_dashless (by decide)
  have hcs : t.toList ≠ [] := fun hnil => hne (String.toList_inj.1 hnil)
  have hpatch : (Rule.ofName "fontFamily").patch c "fontFamily" (.string t)
      = Rule.orUnreadable "fontFamily" (.string t) (fun f => .one "fontFamily" (.ofText f))
          (Shorthand.firstFamily? t.toList) := by
    have hrule : Rule.ofName "fontFamily" = .fontFamily := by decide +kernel
    rw [hrule, Rule.patch, Json.string?, Option.bind_some]
  rw [← Shorthand.firstFamily?_eq_self_iff hcs hform]
  cases hfamily : Shorthand.firstFamily? t.toList with
  | some family =>
    rw [hfamily] at hpatch
    rw [Option.some_inj]
    exact stays_iff_of_patch hname hpatch rfl
  | none =>
    rw [hfamily] at hpatch
    exact iff_of_false (not_stays_of_refused hname hpatch) fun h => Option.some_ne_none _ h.symm

end Entry

/-! ## The members of a compiled style -/

/-- **A member of a style**, by what the rule of its name makes of it. -/
inductive Style.Member (c : Config) (s : Style) : String → Json → Prop
  | null (name : String) : Member c s name .null
  | kept {name : String} {v : Json} (hname : canonicalName name = name)
    (hv : c.resolver.unwrap v = some v) (h : (Rule.ofName name).Keeps c name v) : Member c s name v
  | background {t : String} (h : s.get? "backgroundColor" = some (.text t)) :
    Member c s "backgroundColor" (.string t)
  | family {t : String} (h : s.get? "fontFamily" = some (.text t)) :
    Member c s "fontFamily" (.string t)

section Members

variable {c : Config} {entries : List (String × Json)} {name : String} {v : Json}

/-- The data of what a rule admits is inside no wrapper. -/
theorem unwrap_toJson {r : Rule} {w : StyleValue} (h : r.Admits c w) (hnull : w.toJson ≠ .null) :
    c.resolver.unwrap w.toJson = some w.toJson := by
  refine Resolver.unwrap_of_wrapped?_eq_none _ ?_ hnull
  cases w with
  | json v => exact h.data.1.not_wrapped
  | number x => cases x <;> rfl
  | _ => rfl

theorem Rule.settled_fontFamily (hrule : ofName name = fontFamily) (h : Settled name) :
    name = "fontFamily" := by
  rw [Settled, hrule] at h
  exact congrArg Prod.fst (List.mem_singleton.1 h)

/-- A compiled property is a member of one of the kinds. -/
theorem member_of_get?_compile {w : StyleValue} (h : (compile c entries).style.get? name = some w) :
    (compile c entries).style.Member c name w.toJson := by
  by_cases hnull : w.toJson = .null
  · rw [hnull]
    exact .null name
  obtain ⟨hsettled, hadmits⟩ := settled_and_admits_of_get?_compile h
  by_cases hfamily : Rule.ofName name = .fontFamily
  · obtain rfl := Rule.settled_fontFamily hfamily hsettled
    rw [hfamily] at hadmits
    obtain ⟨t, rfl, -⟩ := hadmits
    exact .family h
  by_cases hbackground : Rule.ofName name = .background ∧ ∃ t, w = .text t
  · obtain ⟨hrule, t, rfl⟩ := hbackground
    obtain rfl := Rule.settled_background hrule hsettled
    exact .background h
  · refine .kept (canonicalName_of_get?_compile h) (unwrap_toJson hadmits hnull)
      (Rule.keeps_of_settled hsettled hadmits (finalForm_of_get?_compile h) hnull ?_ hfamily)
    exact fun hrule t ht => hbackground ⟨hrule, t, ht⟩

/-- The gradient of a style is passed on as data. -/
theorem member_gradient (c : Config) (s : Style) (g : Gradient) :
    s.Member c Style.gradientKey g.toJson := by
  have hrule : Rule.ofName Style.gradientKey = .other := by decide +kernel
  refine .kept (canonicalName_of_dashless (by decide))
    (Resolver.unwrap_of_wrapped?_eq_none _ rfl nofun) ⟨.json g.toJson, ?_, rfl⟩
  rw [hrule]
  rfl

/-- **Every member of a compiled style is of one of the kinds.** -/
theorem member_cases (h : (name, v) ∈ (compile c entries).style.toJson.members) :
    (compile c entries).style.Member c name v := by
  rw [Style.mem_members_iff, Style.field?_toJson, Option.or_eq_some_iff] at h
  rcases h with hgradient | ⟨-, hproperty⟩
  · obtain ⟨rfl, hg⟩ := Option.ite_none_right_eq_some.1 hgradient
    obtain ⟨g, -, rfl⟩ := Option.map_eq_some_iff.1 hg
    exact member_gradient c _ g
  · obtain ⟨w, hw, rfl⟩ := Option.map_eq_some_iff.1 hproperty
    exact member_of_get?_compile hw

/-- A name that an entry writes under is a target of its rule. -/
theorem exists_mem_targets_of_contains {entry : String × Json} {key : String}
    (h : (styleAlone c entry).contains key) : ∃ target,
      (key, target) ∈ (Rule.ofName (canonicalName entry.1)).targets (canonicalName entry.1) := by
  obtain ⟨w, hw⟩ := Option.isSome_iff_exists.1 h
  have hcompiled : (compile c [entry]).style.get? key = some w := hw
  obtain ⟨e, he, v, hv, hwrite⟩ := exists_write_of_get?_compile hcompiled
  obtain rfl := List.mem_singleton.1 he
  obtain ⟨target, htarget, -⟩ := hwrite.admitted hv
  exact ⟨target, htarget⟩

/-- **A member writes under its own name alone.** -/
theorem Style.Member.own {s : Style} (h : s.Member c name v) {key : String}
    (hkey : (styleAlone c (name, v)).contains key) : key = name := by
  have htarget := exists_mem_targets_of_contains hkey
  cases h with
  | null =>
    rw [styleAlone_null] at hkey
    cases hkey
  | kept hname hv hkeeps =>
    obtain ⟨w, hp, -⟩ := hkeeps
    rw [styleAlone_of_patch hname hv hp, contains_eq_isSome, get?_apply_one] at hkey
    exact Decidable.of_not_not fun hne => by simp [hne] at hkey
  | background =>
    have hrule : Rule.ofName (canonicalName "backgroundColor") = .background := by decide +kernel
    obtain ⟨target, hmem⟩ := htarget
    rw [hrule] at hmem
    exact congrArg Prod.fst (List.mem_singleton.1 hmem)
  | family =>
    have hrule : Rule.ofName (canonicalName "fontFamily") = .fontFamily := by decide +kernel
    obtain ⟨target, hmem⟩ := htarget
    rw [hrule] at hmem
    exact congrArg Prod.fst (List.mem_singleton.1 hmem)

/-! ## Compiled again -/

/-- **A member of a compiled style is compiled by itself** when the style is compiled again. -/
theorem get?_recompiled (h : (name, v) ∈ (compile c entries).style.toJson.members) :
    (compile c (compile c entries).style.toJson.members).style.get? name
      = (styleAlone c (name, v)).get? name :=
  get?_compile_of_own (compile c entries).style.nodup_members
    (fun _ hentry _ hkey => (member_cases hentry).own hkey) h

/-- What is not among the members is not written when they are compiled. -/
theorem get?_recompiled_eq_none (h : (compile c entries).style.toJson.field? name = none) :
    (compile c (compile c entries).style.toJson.members).style.get? name = none := by
  refine Option.eq_none_iff_forall_ne_some.2 fun w hw => ?_
  have hcontains : (compile c (compile c entries).style.toJson.members).style.contains name := by
    rw [Style.contains_eq_isSome, hw]
    rfl
  obtain ⟨⟨key, u⟩, hmem, hkey⟩ := (contains_compile_iff c _ name).1 hcontains
  obtain rfl : name = key := (member_cases hmem).own hkey
  rw [Style.mem_members_iff, h] at hmem
  cases hmem

/-- **Where every member stays**, the style has the same data again. -/
theorem sameMembers_of_stays (h : ∀ entry ∈ (compile c entries).style.toJson.members, Stays c entry) :
    (compile c (compile c entries).style.toJson.members).style.toJson.SameMembers
      (compile c entries).style.toJson := by
  have hgradient : (compile c (compile c entries).style.toJson.members).style.gradient = none := by
    rw [gradient_compile, List.findSome?_eq_none_iff]
    exact fun entry hentry => gradient_eq_none_of_stays (h entry (List.mem_reverse.1 hentry))
  refine ⟨Style.isObject_toJson _, Style.isObject_toJson _, fun key => ?_⟩
  rw [Style.field?_toJson _ key, hgradient, Option.map_none, ite_self, Option.none_or]
  cases hkey : (compile c entries).style.toJson.field? key with
  | none => rw [get?_recompiled_eq_none hkey, Option.map_none]
  | some v =>
    have hmem := Style.mem_members_iff.2 hkey
    rw [get?_recompiled hmem]
    exact h _ hmem

/-- **Where the style has the same data again**, every member stays. -/
theorem stays_of_sameMembers (h : (compile c (compile c entries).style.toJson.members).style.toJson
    |>.SameMembers (compile c entries).style.toJson)
    (hmem : (name, v) ∈ (compile c entries).style.toJson.members) : Stays c (name, v) := by
  have hfield := h.fields name
  rw [Style.mem_members_iff.1 hmem, Style.field?_toJson _ name, get?_recompiled hmem] at hfield
  cases member_cases hmem with
  | kept hname hv hkeeps => exact stays_of_keeps hname hv hkeeps
  | null =>
    -- nothing is written for `null`, and the data of a gradient is an object
    rw [styleAlone_null, Style.get?_empty, Option.map_none, Option.or_none] at hfield
    obtain ⟨-, hg⟩ := Option.ite_none_right_eq_some.1 hfield
    obtain ⟨g, -, hg⟩ := Option.map_eq_some_iff.1 hg
    cases hg
  | background =>
    rw [if_neg (by decide), Option.none_or] at hfield
    exact hfield
  | family =>
    rw [if_neg (by decide), Option.none_or] at hfield
    exact hfield

/-- A compiled text is the member of its name. -/
theorem mem_members_of_text {t : String} (hname : name ≠ Style.gradientKey)
    (h : (compile c entries).style.get? name = some (.text t)) :
    (name, .string t) ∈ (compile c entries).style.toJson.members := by
  rw [Style.mem_members_iff, Style.field?_toJson, if_neg hname, Option.none_or, h]
  rfl

theorem stays_background_of_get? {t : String}
    (h : (compile c entries).style.get? "backgroundColor" = some (.text t)) :
    Stays c ("backgroundColor", .string t) ↔ (Gradient.isGradient t.toList →
      Gradient.parse? t.toList = none ∧ Token.firstColor? t.toList = some t.toList) := by
  have hrule : Rule.ofName "backgroundColor" = .background := by decide +kernel
  have hform := finalForm_of_get?_compile h t rfl
  rw [hrule] at hform
  exact stays_background_iff hform

theorem stays_family_of_get? {t : String}
    (h : (compile c entries).style.get? "fontFamily" = some (.text t)) :
    Stays c ("fontFamily", .string t) ↔ (∀ q ∈ t.toList.head?, Shorthand.isQuote q = false) ∧
      ∀ q ∈ t.toList.getLast?, Shorthand.isQuote q = false := by
  have hrule : Rule.ofName "fontFamily" = .fontFamily := by decide +kernel
  have hform := finalForm_of_get?_compile h t rfl
  obtain ⟨s, hs, hne⟩ := admits_of_get?_compile hrule h
  obtain rfl := StyleValue.text.inj hs
  rw [hrule] at hform
  exact stays_family_iff hne hform

/-- **Every member stays iff the style can be read again.** -/
theorem stays_iff_rereadable :
    (∀ entry ∈ (compile c entries).style.toJson.members, Stays c entry)
      ↔ (compile c entries).style.Rereadable := by
  constructor
  · intro h
    refine ⟨fun name hnull => ?_, fun t ht => ?_, fun t ht => ?_⟩
    · exact not_stays_of_empty (styleAlone_null c name) (h _ (Style.mem_members_iff.2 hnull))
    · exact (stays_background_of_get? ht).1 (h _ (mem_members_of_text (by decide) ht))
    · exact (stays_family_of_get? ht).1 (h _ (mem_members_of_text (by decide) ht))
  · rintro h ⟨name, v⟩ hmem
    cases member_cases hmem with
    | null => exact absurd (Style.mem_members_iff.1 hmem) (h.no_null name)
    | kept hname hv hkeeps => exact stays_of_keeps hname hv hkeeps
    | background ht => exact (stays_background_of_get? ht).2 (h.background _ ht)
    | family ht => exact (stays_family_of_get? ht).2 (h.family _ ht)

end Members

/-- **A compiled style has the same data when it is compiled again iff it can be read again.** -/
theorem recompile_iff (c : Config) (entries : List (String × Json)) :
    (compile c (compile c entries).style.toJson.members).style.toJson.SameMembers
        (compile c entries).style.toJson
      ↔ (compile c entries).style.Rereadable :=
  Iff.trans ⟨fun h _ hmem => stays_of_sameMembers h hmem, sameMembers_of_stays⟩ stays_iff_rereadable

/-- **A gradient inside a gradient** is the first colour of the outer one, and is read as a gradient
when the style is compiled again. -/
theorem not_sameMembers_nested_gradient :
    ¬ (compile {} (compile {} [("backgroundColor",
          .string "linear-gradient(linear-gradient(red, blue), green)")]).style.toJson.members
        ).style.toJson.SameMembers
      (compile {} [("backgroundColor",
        .string "linear-gradient(linear-gradient(red, blue), green)")]).style.toJson := by
  intro h
  have hdiffers : (compile {} (compile {} [("backgroundColor",
        .string "linear-gradient(linear-gradient(red, blue), green)")]).style.toJson.members
      ).style.toJson.field? "backgroundColor" = some (.string "red")
      ∧ (compile {} [("backgroundColor",
        .string "linear-gradient(linear-gradient(red, blue), green)")]).style.toJson.field?
          "backgroundColor" = some (.string "linear-gradient(red, blue)") := by
    decide +kernel
  have hsame := h.fields "backgroundColor"
  rw [hdiffers.1, hdiffers.2] at hsame
  exact absurd hsame (by decide)

end ScreenLayout
