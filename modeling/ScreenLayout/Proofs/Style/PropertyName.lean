import ScreenLayout.Proofs.Style.Canonical
import ScreenLayout.Style.PropertyName

/-!
# Proofs/Style/PropertyName — canonical names stay

A canonical name has no dash: those of a name are taken out, and no letter has a dash in its upper
case.  A name without a dash is its own canonical name.  The rules write under the name they are asked
for, a longer one or one of their own, none with a dash; so every compiled name is canonical.

* `canonicalName_of_dashless` — a name without a dash is canonical.
* `dashless_canonicalName` — a canonical name has no dash.
* `canonicalName_of_get?_compile` — a compiled name is canonical.
* `compile_canonicalNames` — a dictionary may be given with canonical names.
* `dashed_compiles_alike` — a name in camel case and its dashed spelling.
-/

namespace ScreenLayout

/-- **A name without a dash.** -/
def Dashless (name : String) : Prop := '-' ∉ name.toList

instance (name : String) : Decidable (Dashless name) := inferInstanceAs (Decidable ('-' ∉ name.toList))

/-! ## Upper case -/

namespace Text.Case

theorem ofNat_ne_dash {n : Nat} (h : 45 < n) : Char.ofNat n ≠ '-' := by
  intro heq
  by_cases hvalid : n.isValidChar
  · have hchar : Char.ofNat n = Char.ofNatAux n hvalid := dif_pos hvalid
    have hn : n = 45 := congrArg Char.toNat (hchar.symm.trans heq)
    omega
  · have hchar : Char.ofNat n = '\x00' := dif_neg hvalid
    exact absurd (hchar.symm.trans heq) (by decide)

theorem toUpper_ne_dash {c : Char} (hc : c ≠ '-') : c.toUpper ≠ '-' := by
  have hshift : ('A'.val - 'a'.val).toNat = 4294967264 := by decide +kernel
  have ha : 'a'.val.toNat = 97 := rfl
  have hz : 'z'.val.toNat = 122 := rfl
  have hdash : '-'.val.toNat = 45 := rfl
  unfold Char.toUpper
  split
  · rename_i hlower
    intro heq
    have hval := congrArg (fun d : Char => d.val.toNat) heq
    simp only [UInt32.toNat_add, hshift, hdash] at hval
    simp only [UInt32.le_iff_toNat_le] at hlower
    omega
  · exact hc

/-- No row leads to a dash. -/
theorem shifted_upperRows_gt {n k : Nat} (h : shifted upperRows n = some k) : 45 < k := by
  have hrows : ∀ row ∈ upperRows, (45 : Int) < row.1 + row.2.2.2 := by decide +kernel
  obtain ⟨⟨first, last, step, shift⟩, hrow, hk⟩ := List.exists_of_findSome?_eq_some h
  obtain ⟨hrange, hk⟩ := Option.ite_none_right_eq_some.1 hk
  obtain rfl := Option.some.inj hk
  have hshift : (45 : Int) < first + shift := hrows _ hrow
  simp only [Bool.and_eq_true, decide_eq_true_eq] at hrange
  omega

/-- **No other character has a dash in its upper case.** -/
theorem dash_not_mem_upperChar {c : Char} (hc : c ≠ '-') : '-' ∉ upperChar c := by
  unfold upperChar
  split
  · rw [List.mem_singleton]
    exact (toUpper_ne_dash hc).symm
  · unfold mapped
    split
    · rename_i ns hns
      have hexpansions : ∀ e ∈ upperExpansions, '-' ∉ e.2.map Char.ofNat := by decide +kernel
      obtain ⟨front, back, hsplit, -⟩ := List.lookup_eq_some_iff.1 hns
      exact hexpansions _ (hsplit ▸ List.mem_append_right _ List.mem_cons_self)
    · split
      · rename_i n hn
        rw [List.mem_singleton]
        exact (ofNat_ne_dash (shifted_upperRows_gt hn)).symm
      · rw [List.mem_singleton]
        exact hc.symm

end Text.Case

/-! ## Canonical names -/

theorem canonicalFrom_cons_of_ne {c : Char} (hc : c ≠ '-') (begun raised : Bool) (cs : List Char) :
    canonicalFrom begun raised (c :: cs)
      = (if raised then Text.Case.upperChar c else [c]) ++ canonicalFrom true false cs :=
  if_neg hc

theorem canonicalFrom_of_not_mem {cs : List Char} (h : '-' ∉ cs) (begun : Bool) :
    canonicalFrom begun false cs = cs := by
  induction cs generalizing begun with
  | nil => rfl
  | cons c cs ih =>
    rw [List.mem_cons, not_or] at h
    rw [canonicalFrom_cons_of_ne (Ne.symm h.1), ih h.2]
    rfl

theorem dash_not_mem_canonicalFrom (begun raised : Bool) (cs : List Char) :
    '-' ∉ canonicalFrom begun raised cs := by
  induction cs generalizing begun raised with
  | nil => exact List.not_mem_nil
  | cons c cs ih =>
    by_cases hc : c = '-'
    · rw [canonicalFrom, if_pos hc]
      exact ih begun begun
    · rw [canonicalFrom_cons_of_ne hc, List.mem_append, not_or]
      refine ⟨?_, ih true false⟩
      split
      · exact Text.Case.dash_not_mem_upperChar hc
      · rw [List.mem_singleton]
        exact Ne.symm hc

/-- **A name without a dash is its own canonical name.** -/
theorem canonicalName_of_dashless {name : String} (h : Dashless name) : canonicalName name = name := by
  rw [canonicalName, canonicalFrom_of_not_mem h, String.ofList_toList]

/-- **A canonical name has no dash.** -/
theorem dashless_canonicalName (name : String) : Dashless (canonicalName name) := by
  rw [Dashless, canonicalName, String.toList_ofList]
  exact dash_not_mem_canonicalFrom false false name.toList

/-! ## Compiled names -/

/-- The rules without names of their own write under the name they are asked for. -/
theorem Rule.mem_dedicated_or_eq {property : String} {target : String × Rule}
    (h : target ∈ (ofName property).targets property) :
    (property, ofName property) ∈ dedicated ∨ target.1 = property := by
  rcases eq_other_or_mem_table property with hother | hmem
  · rw [hother] at h
    exact .inr (congrArg Prod.fst (List.mem_singleton.1 h))
  · generalize ofName property = r at h hmem
    simp only [table, List.mem_append, List.mem_map, Prod.mk.injEq] at hmem
    rcases hmem with (((⟨_, -, -, rfl⟩ | hmem) | ⟨_, -, -, rfl⟩) | ⟨_, -, -, rfl⟩) | ⟨_, -, -, rfl⟩
    · cases h
    · exact .inl hmem
    all_goals exact .inr (congrArg Prod.fst (List.mem_singleton.1 h))

theorem Rule.dashless_of_mem_targets {property : String} (hproperty : Dashless property)
    {target : String × Rule} (h : target ∈ (ofName property).targets property) :
    Dashless target.1 := by
  have hdedicated : ∀ e ∈ dedicated, ∀ target ∈ e.2.targets e.1, Dashless target.1 := by
    decide +kernel
  rcases mem_dedicated_or_eq h with hmem | heq
  · exact hdedicated _ hmem target h
  · exact heq ▸ hproperty

/-- **A compiled name is canonical.** -/
theorem canonicalName_of_get?_compile {c : Config} {entries : List (String × Json)} {name : String}
    {w : StyleValue} (h : (compile c entries).style.get? name = some w) : canonicalName name = name := by
  obtain ⟨entry, -, v, hv, hwrite⟩ := exists_write_of_get?_compile h
  obtain ⟨target, htarget, -⟩ := hwrite.admitted hv
  exact canonicalName_of_dashless (Rule.dashless_of_mem_targets (dashless_canonicalName _) htarget)

/-! ## Names in camel case -/

/-- The spelling of a character of a dashed name: a capital is a dash and its lower case. -/
def dashedChar (c : Char) : List Char := if c.isUpper then ['-', c.toLower] else [c]

/-- **The dashed spelling of a name.** -/
def dashedName (name : String) : String := String.ofList (name.toList.flatMap dashedChar)

/-- **A name in camel case**: ASCII letters, the first of them a small one. -/
structure IsCamelCase (name : String) : Prop where
  letters : name.toList.all Char.isAlpha
  small : name.toList.head?.any Char.isLower

/-- **A dashed name is read back**, letter by letter, once it has begun. -/
theorem canonicalFrom_flatMap_dashedChar {cs : List Char} (h : '-' ∉ cs) :
    canonicalFrom true false (cs.flatMap dashedChar) = cs := by
  induction cs with
  | nil => rfl
  | cons c cs ih =>
    rw [List.mem_cons, not_or] at h
    obtain ⟨hc, hcs⟩ := h
    rw [List.flatMap_cons, dashedChar]
    split
    · rename_i hupper
      have hlower : c.toLower ≠ '-' := fun heq =>
        hc ((Text.toLower_eq_iff rfl).1 heq).symm
      rw [List.cons_append, canonicalFrom, if_pos rfl, List.singleton_append,
        canonicalFrom_cons_of_ne hlower, if_pos rfl,
        Text.Case.upperChar_of_isLower (Text.isLower_toLower hupper), Text.toUpper_toLower hupper,
        ih hcs]
      rfl
    · rw [List.singleton_append, canonicalFrom_cons_of_ne (Ne.symm hc), ih hcs]
      rfl

/-- **The dashed spelling of a name in camel case** has it as its canonical name. -/
theorem canonicalName_dashedName {name : String} (h : IsCamelCase name) :
    canonicalName (dashedName name) = name := by
  obtain ⟨hletters, hsmall⟩ := h
  rw [canonicalName, dashedName, String.toList_ofList]
  refine (congrArg String.ofList ?_).trans (String.ofList_toList (s := name))
  generalize name.toList = cs at hletters hsmall
  obtain _ | ⟨c, cs⟩ := cs
  · cases hsmall
  have hdashless : '-' ∉ c :: cs := fun hmem => by
    cases List.all_eq_true.1 hletters _ hmem
  rw [List.mem_cons, not_or] at hdashless
  -- the first letter is no capital, so it begins the name as it is
  have hfirst : dashedChar c = [c] := if_neg (Text.not_isUpper_of_isLower hsmall)
  rw [List.flatMap_cons, hfirst, List.singleton_append, canonicalFrom_cons_of_ne (Ne.symm hdashless.1),
    canonicalFrom_flatMap_dashedChar hdashless.2]
  rfl

/-- **A dictionary may be given with canonical names.** -/
theorem compile_canonicalNames (c : Config) (entries : List (String × Json)) :
    compile c (entries.map fun entry => (canonicalName entry.1, entry.2)) = compile c entries := by
  have hentry : ∀ (out : Compiled) (entry : String × Json),
      compileInto c out (canonicalName entry.1, entry.2) = compileInto c out entry := by
    intro out entry
    rw [compileInto, canonicalName_of_dashless (dashless_canonicalName entry.1)]
    rfl
  simp only [compile, List.foldl_map, hentry]

/-- **A property may be spelled with dashes.**  A canonical name has no dash and stays; the dashed
spelling of a name in camel case has it as its canonical name, and an entry under either compiles to
the same style and the same log. -/
theorem dashed_compiles_alike :
    (∀ key, Dashless (canonicalName key) ∧ canonicalName (canonicalName key) = canonicalName key)
    ∧ ∀ name, IsCamelCase name →
        canonicalName (dashedName name) = name
        ∧ ∀ c v, compile c [(dashedName name, v)] = compile c [(name, v)] := by
  refine ⟨fun key => ?_, fun name hname => ?_⟩
  · exact ⟨dashless_canonicalName key, canonicalName_of_dashless (dashless_canonicalName key)⟩
  · have hcanonical := canonicalName_dashedName hname
    refine ⟨hcanonical, fun c v => ?_⟩
    have hcompile := compile_canonicalNames c [(dashedName name, v)]
    rw [List.map_singleton, hcanonical] at hcompile
    exact hcompile.symm

/-- A name with three capitals and its dashed spelling: either writes the radius of that corner. -/
theorem dashed_compiles_alike_radius :
    IsCamelCase "borderTopLeftRadius"
    ∧ dashedName "borderTopLeftRadius" = "border-top-left-radius"
    ∧ canonicalName "border-top-left-radius" = "borderTopLeftRadius"
    ∧ compile {} [("border-top-left-radius", .string "4px")]
      = compile {} [("borderTopLeftRadius", .string "4px")]
    ∧ compile {} [("border-top-left-radius", .string "4px")]
      = ⟨Style.empty.insert "borderTopLeftRadius" (.number (FiniteDouble.ofUInt64 4)), []⟩ := by
  have hname : IsCamelCase "borderTopLeftRadius" := ⟨by decide +kernel, by decide +kernel⟩
  have hdashed : dashedName "borderTopLeftRadius" = "border-top-left-radius" := by decide +kernel
  have h := dashed_compiles_alike.2 "borderTopLeftRadius" hname
  rw [hdashed] at h
  exact ⟨hname, hdashed, h.1, h.2 {} (.string "4px"), by decide +kernel⟩

end ScreenLayout
