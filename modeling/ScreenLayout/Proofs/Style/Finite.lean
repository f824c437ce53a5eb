import ScreenLayout.Proofs.Style.Data
import ScreenLayout.Proofs.Style.Patches

/-!
# Proofs/Style/Finite — which compiled numbers are finite

Numbers are read as finite doubles, and half a double or a hundredth of one is finite again.  Two
rules compute further and may leave the range: the ratio of two numbers, and a letter spacing scaled
by the font size.  A compiled style is finite just when every entry that leaves the range is written
over by a later one.

* `Double.isFinite_div` — dividing by two or more stays within the range.
* `Rule.Overflows` — the values a rule turns into a number that is not finite.
* `Rule.Write.isFinite_or_overflows` — what any other value is turned into is finite.
* `compile_finite_iff` — when a compiled style is finite, and that its numbers are then shown.
-/

namespace ScreenLayout

/-! ## Finite doubles -/

namespace Double

def isFinite : Double → Bool
  | finite _ => true
  | _ => false

theorem isFinite_iff {x : Double} : x.isFinite ↔ ∃ y, x = .finite y := by
  cases x <;> simp [isFinite]

/-- **Dividing by two or more stays within the range.** -/
theorem isFinite_div (x : FiniteDouble) {y : FiniteDouble} (hy : 2 * Units.perOne ≤ y.units) :
    (div x y).isFinite := by
  have hnonzero : y.isZero = false := by
    have hpos := Units.perOne_pos
    exact beq_eq_false_iff_ne.2 (by omega)
  have hbelow : x.units * Units.perOne < y.units * Units.twoPow (Units.limitPlace - 1) :=
    calc x.units * Units.perOne
        < 2 * Units.twoPow (Units.limitPlace - 1) * Units.perOne :=
          (Nat.mul_lt_mul_right Units.perOne_pos).2 x.units_lt_two_mul
      _ = 2 * Units.perOne * Units.twoPow (Units.limitPlace - 1) := Nat.mul_right_comm _ _ _
      _ ≤ y.units * Units.twoPow (Units.limitPlace - 1) := Nat.mul_le_mul_right _ hy
  have hround := (Units.representable_round_of_lt hbelow (by decide) (by decide)).2
  rw [div, hnonzero, if_neg Bool.false_ne_true, ofRatio, dif_pos hround]
  rfl

end Double

theorem FiniteDouble.two_le_units_hundred : 2 * Units.perOne ≤ (ofUInt64 100).units := by
  decide +kernel

/-- A percentage is finite, since it is divided by a number that is not small. -/
theorem isFinite_ofPercent (x : FiniteDouble) : (ofPercent x).isFinite :=
  Double.isFinite_div x FiniteDouble.two_le_units_hundred

/-- **Settings of finite numbers.** -/
structure Config.Finite (c : Config) : Prop where
  baseFontSize : c.baseFontSize.isFinite
  pillRadius : c.pillRadius.isFinite
  roundedThreshold : c.roundedThreshold.isFinite
  shadowOpacity : c.shadowOpacity.isFinite

namespace StyleValue

/-- The numbers in a value. -/
def numbers : StyleValue → List Double
  | number x => [x]
  | offset width height => [width, height]
  | _ => []

/-- **A value of finite numbers**, if it has any. -/
def IsFinite (w : StyleValue) : Prop := ∀ x ∈ w.numbers, x.isFinite

theorem isFinite_number {x : Double} (hx : x.isFinite) : (number x).IsFinite := by
  intro y hy
  rwa [List.mem_singleton.1 hy]

/-- A value without numbers is finite. -/
theorem isFinite_of_numbers_eq_nil {w : StyleValue} (h : w.numbers = []) : w.IsFinite := by
  intro x hx
  rw [h] at hx
  cases hx

end StyleValue

/-- **A style of finite numbers**, the angle of its gradient among them. -/
structure Style.Finite (s : Style) : Prop where
  properties : ∀ name w, s.get? name = some w → w.IsFinite
  angle : ∀ g, s.gradient = some g → g.angle.isFinite

/-! ## What the rules write -/

/-- **The values a rule turns into a number beyond the range**: ratios, and letter spacings. -/
def Rule.Overflows (c : Config) (v : Json) : Rule → Prop
  | unitless => ∃ s x, v = .string s ∧ ratio? s.toList = some x ∧ x.isFinite = false
  | letterSpacing => ∃ x, letterSpacing? c v = some x ∧ x.isFinite = false
  | _ => False

section Values

variable {c : Config} {v : Json}

/-- **A length is finite**: its text is read as a finite number or not at all. -/
theorem isFinite_ofLength (v : Json) : (StyleValue.ofLength v).IsFinite := by
  unfold StyleValue.ofLength
  split
  · exact StyleValue.isFinite_number rfl
  · split
    · exact StyleValue.isFinite_number rfl
    · exact StyleValue.isFinite_of_numbers_eq_nil rfl
  · exact StyleValue.isFinite_of_numbers_eq_nil rfl

/-- A value without a rule is a length, or a number that lost its unit. -/
theorem isFinite_otherValue (v : Json) : (otherValue v).IsFinite := by
  unfold otherValue
  split
  · split
    · exact StyleValue.isFinite_number rfl
    · exact StyleValue.isFinite_of_numbers_eq_nil rfl
  · exact isFinite_ofLength _

theorem isFinite_keywordValue (v : Json) : (keywordValue v).IsFinite := by
  unfold keywordValue
  split <;> exact StyleValue.isFinite_of_numbers_eq_nil rfl

/-- A number without a unit is a ratio, or finite: only one of the two ways to read it can leave the
range. -/
theorem unitlessNumber?_cases {cs : List Char} {x : Double} (h : unitlessNumber? cs = some x) :
    ratio? cs = some x ∨ ∃ y : FiniteDouble, x = y := by
  unfold unitlessNumber? at h
  cases hratio : ratio? cs with
  | some y =>
    rw [hratio] at h
    exact .inl h
  | none =>
    rw [hratio] at h
    obtain ⟨y, -, rfl⟩ := Option.map_eq_some_iff.1 h
    exact .inr ⟨y, rfl⟩

/-- **A number without a unit is finite unless it is a ratio that overflows.** -/
theorem isFinite_unitless_or_overflows (c : Config) (v : Json) :
    (unitless v).IsFinite ∨ Rule.unitless.Overflows c v := by
  unfold unitless
  split
  · exact .inl (StyleValue.isFinite_number rfl)
  · rename_i s
    split
    · rename_i x hx
      cases hfinite : x.isFinite with
      | true => exact .inl (StyleValue.isFinite_number hfinite)
      | false =>
        -- a plain number is finite, so this is a ratio
        refine .inr ⟨s, x, rfl, ?_, hfinite⟩
        rcases unitlessNumber?_cases hx with hratio | ⟨y, rfl⟩
        · exact hratio
        · cases hfinite
    · exact .inl (StyleValue.isFinite_of_numbers_eq_nil rfl)
  · exact .inl (StyleValue.isFinite_of_numbers_eq_nil rfl)

theorem StyleValue.IsLengthPart.isFinite {w : StyleValue} (h : w.IsLengthPart) : w.IsFinite := by
  rcases h with ⟨x, rfl⟩ | rfl
  · exact isFinite_number rfl
  · exact isFinite_of_numbers_eq_nil rfl

theorem Shorthand.BoxWrite.isFinite {property n : String} {w : StyleValue}
    (h : BoxWrite property n w) : w.IsFinite := by
  cases h with
  | all hw => exact hw.isFinite
  | side _ hw => exact hw.isFinite

theorem Shorthand.BorderWrite.isFinite {side n : String} {w : StyleValue} (h : BorderWrite side n w) :
    w.IsFinite := by
  cases h with
  | width x => exact StyleValue.isFinite_number rfl
  | color _ _ => exact StyleValue.isFinite_of_numbers_eq_nil rfl
  | line _ _ => exact StyleValue.isFinite_of_numbers_eq_nil rfl

/-- What a shadow writes is finite; its opacity comes from the settings. -/
theorem Shorthand.ShadowWrite.isFinite (hc : c.Finite) {n : String} {w : StyleValue}
    (h : ShadowWrite c n w) : w.IsFinite := by
  cases h with
  | offset x y => simp [StyleValue.IsFinite, StyleValue.numbers, Double.isFinite]
  | opacity => exact StyleValue.isFinite_number hc.shadowOpacity
  | radius x => exact StyleValue.isFinite_number rfl
  | elevation x => exact StyleValue.isFinite_number rfl
  | color _ _ => exact StyleValue.isFinite_of_numbers_eq_nil rfl

theorem Shorthand.FontWrite.isFinite {n : String} {w : StyleValue} (h : FontWrite n w) :
    w.IsFinite := by
  cases h with
  | size x => exact StyleValue.isFinite_number rfl
  | lineHeight x => exact StyleValue.isFinite_number rfl
  | _ => exact StyleValue.isFinite_of_numbers_eq_nil rfl

/-- **What a rule writes is finite**, but for the values it turns into a number beyond the range. -/
theorem Rule.Write.isFinite_or_overflows (hc : c.Finite) {property n : String} {r : Rule}
    {w : StyleValue} (h : r.Write c property v n w) : w.IsFinite ∨ r.Overflows c v := by
  cases h with
  | box h => exact .inl h.isFinite
  | border h => exact .inl h.isFinite
  | boxShadow h => exact .inl (h.isFinite hc)
  | font h => exact .inl h.isFinite
  | lengthAs _ => exact .inl (isFinite_ofLength v)
  | length => exact .inl (isFinite_ofLength v)
  | other => exact .inl (isFinite_otherValue v)
  | keyword => exact .inl (isFinite_keywordValue v)
  | unitless => exact isFinite_unitless_or_overflows c v
  | opacity x => exact .inl (StyleValue.isFinite_number rfl)
  | opacityPercent x => exact .inl (StyleValue.isFinite_number (isFinite_ofPercent x))
  | borderRadius h =>
    rcases Shorthand.borderRadius_cases h with rfl | ⟨y, rfl, -⟩
    · exact .inl (StyleValue.isFinite_number hc.pillRadius)
    · exact .inl (StyleValue.isFinite_number rfl)
  | @letterSpacing x h =>
    cases hfinite : x.isFinite with
    | true => exact .inl (StyleValue.isFinite_number hfinite)
    | false => exact .inr ⟨x, h, hfinite⟩
  | _ => exact .inl (StyleValue.isFinite_of_numbers_eq_nil rfl)

end Values

/-! ## Entries beyond the range -/

/-- **An entry beyond the range**: its rule turns its value into a number that is not finite. -/
def Overflows (c : Config) (entry : String × Json) : Prop :=
  ∃ v, c.resolver.unwrap entry.2 = some v ∧
    (Rule.ofName (canonicalName entry.1)).Overflows c v

/-- Only one name has the rule of letter spacings. -/
theorem Rule.eq_letterSpacing_of_ofName {name : String} (h : ofName name = letterSpacing) :
    name = "letterSpacing" := by
  have htable : ∀ e ∈ table, e.2 = letterSpacing → e.1 = "letterSpacing" := by decide +kernel
  rcases eq_other_or_mem_table name with hother | hmem
  · rw [h] at hother
    cases hother
  · exact htable _ hmem h

/-- A number beyond the range is written under the name of its entry. -/
theorem Rule.patch_of_overflows {c : Config} {property : String} {v : Json}
    (h : (ofName property).Overflows c v) :
    ∃ x : Double, (ofName property).patch c property v = .ok (.one property (.number x)) ∧
      x.isFinite = false := by
  generalize hr : ofName property = r at h ⊢
  cases r with
  | unitless =>
    obtain ⟨s, x, rfl, hratio, hx⟩ := h
    have hnumber : unitlessNumber? s.toList = some x := by
      rw [unitlessNumber?, hratio]
      rfl
    refine ⟨x, ?_, hx⟩
    rw [patch, ScreenLayout.unitless, hnumber]
  | letterSpacing =>
    obtain ⟨x, hread, hx⟩ := h
    refine ⟨x, ?_, hx⟩
    rw [eq_letterSpacing_of_ofName hr, patch, hread]
    rfl
  | _ => exact h.elim

variable {c : Config} {entry : String × Json}

/-- **An entry beyond the range writes a number that is not finite** under its own name. -/
theorem get?_styleAlone_of_overflows (h : Overflows c entry) :
    ∃ x : Double, (styleAlone c entry).get? (canonicalName entry.1) = some (.number x) ∧
      x.isFinite = false := by
  obtain ⟨v, hv, hover⟩ := h
  obtain ⟨x, hpatch, hx⟩ := Rule.patch_of_overflows hover
  refine ⟨x, ?_, hx⟩
  rw [styleAlone_eq, patch_compileEntry_of_ok hv hpatch, get?_apply_one, if_pos rfl]

/-- **What an entry writes is finite**, or the entry is beyond the range and writes under its own
name. -/
theorem isFinite_or_overflows_of_get?_styleAlone (hc : c.Finite) {name : String} {w : StyleValue}
    (h : (styleAlone c entry).get? name = some w) :
    w.IsFinite ∨ Overflows c entry ∧ name = canonicalName entry.1 := by
  rw [get?_styleAlone] at h
  have hmem := mem_of_lastWrite? h
  obtain ⟨v, hv, hwrite⟩ := exists_write_of_mem_compileEntry hmem
  refine (hwrite.isFinite_or_overflows hc).imp_right fun hover => ⟨⟨v, hv, hover⟩, ?_⟩
  obtain ⟨x, hpatch, -⟩ := Rule.patch_of_overflows hover
  rw [patch_compileEntry_of_ok hv hpatch] at hmem
  exact congrArg Prod.fst (List.mem_singleton.1 hmem)

/-! ## Styles -/

/-- **A compiled style is finite just when no number beyond the range is left in it.** -/
theorem finite_compile_iff (hc : c.Finite) (entries : List (String × Json)) :
    (compile c entries).style.Finite ↔ ∀ front entry back, entries = front ++ entry :: back →
      Overflows c entry → ∃ later ∈ back, (styleAlone c later).contains (canonicalName entry.1) := by
  refine ⟨fun hfinite front entry back hentries hover => ?_, fun h => ⟨fun name w hw => ?_, ?_⟩⟩
  · by_contra hnone
    obtain ⟨x, hx, hinfinite⟩ := get?_styleAlone_of_overflows hover
    have hlast : ∀ later ∈ back, (styleAlone c later).contains (canonicalName entry.1) = false :=
      fun later hlater => Bool.eq_false_iff.2 fun hcontains => hnone ⟨later, hlater, hcontains⟩
    have hget := get?_compile_eq_some_iff.2 ⟨front, entry, back, hentries, hx, hlast⟩
    have hxfinite := hfinite.properties _ _ hget x (List.mem_singleton_self x)
    rw [hinfinite] at hxfinite
    cases hxfinite
  · obtain ⟨front, entry, back, hentries, hget, hlast⟩ := get?_compile_eq_some_iff.1 hw
    rcases isFinite_or_overflows_of_get?_styleAlone hc hget with hfinite | ⟨hover, rfl⟩
    · exact hfinite
    · obtain ⟨later, hlater, hcontains⟩ := h front entry back hentries hover
      rw [hlast later hlater] at hcontains
      cases hcontains
  · intro g hg
    obtain ⟨cs, hread⟩ := exists_parse?_of_gradient_compile hg
    obtain ⟨x, colors, rfl, -⟩ := Gradient.exists_of_parse? hread
    rfl

/-! ## Numbers as data -/

/-- **Data that shows its numbers**: neither it nor a member of it is `null`. -/
def Json.IsShown (v : Json) : Prop := v ≠ .null ∧ ∀ e ∈ v.members, e.2 ≠ .null

theorem ofDouble_ne_null {x : Double} (hx : x.isFinite) : Json.ofDouble x ≠ .null := by
  cases x with
  | finite x => exact nofun
  | _ => cases hx

theorem StyleValue.IsFinite.isShown {w : StyleValue} (h : w.IsFinite) (hnumbers : w.numbers ≠ []) :
    w.toJson.IsShown := by
  cases w with
  | number x =>
    obtain ⟨y, rfl⟩ : ∃ y, x = .finite y := by
      have hx := h x (List.mem_singleton_self x)
      cases x with
      | finite y => exact ⟨y, rfl⟩
      | _ => cases hx
    exact ⟨nofun, nofun⟩
  | offset width height =>
    refine ⟨nofun, List.forall_mem_cons.2 ⟨?_, List.forall_mem_cons.2 ⟨?_, nofun⟩⟩⟩
    · exact ofDouble_ne_null (h width List.mem_cons_self)
    · exact ofDouble_ne_null (h height (List.mem_cons_of_mem _ List.mem_cons_self))
  | _ => exact absurd rfl hnumbers

theorem Gradient.isShown {g : Gradient} (h : g.angle.isFinite) : g.toJson.IsShown :=
  ⟨nofun, List.forall_mem_cons.2 ⟨nofun, List.forall_mem_cons.2 ⟨ofDouble_ne_null h,
    List.forall_mem_cons.2 ⟨nofun, nofun⟩⟩⟩⟩

/-- **The numbers of a finite style are shown**, unless the gradient hides them under its name. -/
theorem Style.Finite.isShown {s : Style} (h : s.Finite) {name : String} {w : StyleValue}
    (hw : s.get? name = some w) (hnumbers : w.numbers ≠ []) :
    ∃ v, s.toJson.field? name = some v ∧ v.IsShown := by
  rw [Style.field?_toJson, hw]
  by_cases hname : name = gradientKey
  · rw [if_pos hname]
    cases hg : s.gradient with
    | none => exact ⟨w.toJson, rfl, (h.properties name w hw).isShown hnumbers⟩
    | some g => exact ⟨g.toJson, rfl, Gradient.isShown (h.angle g hg)⟩
  · rw [if_neg hname]
    exact ⟨w.toJson, rfl, (h.properties name w hw).isShown hnumbers⟩

/-- **A compiled style is finite just when every number beyond the range is written over by a later
entry**, and then no `null` stands where a number was written. -/
theorem compile_finite_iff (hc : c.Finite) (entries : List (String × Json)) :
    ((compile c entries).style.Finite ↔ ∀ front entry back, entries = front ++ entry :: back →
        Overflows c entry → ∃ later ∈ back, (styleAlone c later).contains (canonicalName entry.1))
      ∧ ((compile c entries).style.Finite → ∀ name w, (compile c entries).style.get? name = some w →
        w.numbers ≠ [] → ∃ v, (compile c entries).style.toJson.field? name = some v ∧ v.IsShown) :=
  ⟨finite_compile_iff hc entries, fun h _ _ hw hnumbers => h.isShown hw hnumbers⟩

/-- The settings without any written are finite. -/
theorem Config.finite_default : Config.Finite {} :=
  ⟨by decide +kernel, by decide +kernel, by decide +kernel, by decide +kernel⟩

/-- A ratio beyond the range is written over under the other spelling of its name. -/
theorem compile_finite_overwritten : Config.Finite {} ∧
    (compile {} [("aspect-ratio", .string "1e308/1e-308"),
      ("aspectRatio", .string "16/9")]).style.Finite := by
  obtain ⟨hiff, -⟩ := compile_finite_iff Config.finite_default
    [("aspect-ratio", .string "1e308/1e-308"), ("aspectRatio", .string "16/9")]
  refine ⟨Config.finite_default, hiff.2 fun front entry back hentries hover => ?_⟩
  rcases front with _ | ⟨first, front⟩
  · obtain ⟨rfl, rfl⟩ := List.cons.inj hentries
    exact ⟨_, List.mem_singleton_self _, by decide +kernel⟩
  · obtain ⟨-, hrest⟩ := List.cons.inj hentries
    rcases front with _ | ⟨second, front⟩
    · obtain ⟨rfl, rfl⟩ := List.cons.inj hrest
      -- the later ratio is within the range
      obtain ⟨v, hv, hover⟩ := hover
      have hvalue : (Config.resolver {}).unwrap (.string "16/9") = some (.string "16/9") := by decide
      have hrule : Rule.ofName (canonicalName "aspectRatio") = .unitless := by decide +kernel
      have hratio : (ratio? "16/9".toList).all Double.isFinite := by decide +kernel
      obtain rfl := Option.some.inj (hvalue.symm.trans hv)
      rw [hrule] at hover
      obtain ⟨s, x, hs, hx, hinfinite⟩ := hover
      obtain rfl := Json.string.inj hs
      rw [hx, Option.all_some, hinfinite] at hratio
      cases hratio
    · have hlength := congrArg List.length (List.cons.inj hrest).2
      simp at hlength

/-- **A ratio beyond the range** is compiled to infinity, and shown as `null`. -/
theorem aspectRatio_not_finite :
    Config.Finite {} ∧ ¬ (compile {} [("aspectRatio", .string "1e308/1e-308")]).style.Finite
      ∧ (compile {} [("aspectRatio", .string "1e308/1e-308")]).style.get? "aspectRatio"
        = some (.number (.infinite false))
      ∧ (compile {} [("aspectRatio", .string "1e308/1e-308")]).style.toJson.field? "aspectRatio"
        = some .null := by
  have hget : (compile {} [("aspectRatio", .string "1e308/1e-308")]).style.get? "aspectRatio"
      = some (.number (.infinite false)) := by decide +kernel
  refine ⟨Config.finite_default, fun hfinite => ?_, hget, by decide +kernel⟩
  have hx := hfinite.properties _ _ hget (.infinite false) (List.mem_singleton_self _)
  cases hx

end ScreenLayout
