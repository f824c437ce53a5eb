import ScreenLayout.Proofs.Style.Recompile

/-!
# Proofs/Style/Lossless — what is written of a style

A style is written as data, with a member for each property and one for the gradient, and as text,
with a line for each.  The gradient comes under a name of its own, which is free as long as no entry
writes a property there; the rule for names without one lets such a property through, and then the
data has one member less than it announces and the text two lines under one name.

* `Style.Lossless` — the data and the text of a style have all there is in it.
* `Style.lossless_iff` — a style with a gradient must not have a property of that name.
* `lossless_compile_iff` — the dictionaries of which nothing is lost.
-/

namespace ScreenLayout

/-! ## The members and the lines of a style -/

namespace Style

/-- **The number of members that a style announces**: its properties, and one for a gradient. -/
def announced (s : Style) : Nat := s.size + s.gradient.toList.length

/-- **The lines of the text of a style**: names, each with the text of its value. -/
def lines (s : Style) : List (String × List Char) :=
  (s.properties.entries.map fun e => (e.1, e.2.render))
    ++ s.gradient.toList.map fun g => (gradientKey, g.render)

/-- **Nothing of a style is lost** when it is written: there are as many members as announced, each
property and the gradient has its own, and the text has one line under the name of each member. -/
structure Lossless (s : Style) : Prop where
  length_members : s.toJson.members.length = s.announced
  property : ∀ name w, s.get? name = some w → s.toJson.field? name = some w.toJson
  gradient : ∀ g, s.gradient = some g → s.toJson.field? gradientKey = some g.toJson
  render_eq : s.render = Text.joined ['\n'] (s.lines.map fun e => line e.1 e.2)
  names_lines : s.lines.map Prod.fst = s.toJson.members.map Prod.fst
  nodup_lines : (s.lines.map Prod.fst).Nodup

variable {s : Style}

theorem render_eq_joined_lines (s : Style) :
    s.render = Text.joined ['\n'] (s.lines.map fun e => line e.1 e.2) := by
  rw [render, lines, List.map_append, List.map_map, List.map_map]
  rfl

theorem names_lines_eq (s : Style) : s.lines.map Prod.fst
    = s.propertyMembers.map Prod.fst ++ s.gradient.toList.map fun _ => gradientKey := by
  rw [lines, propertyMembers, List.map_append, List.map_map, List.map_map, List.map_map]
  rfl

theorem length_propertyMembers (s : Style) : s.propertyMembers.length = s.size :=
  List.length_map _

/-- **A gradient that hides a property** leaves one member less than announced. -/
theorem length_members_of_hidden (hgradient : s.gradient.isSome) (hhidden : s.contains gradientKey) :
    s.toJson.members.length + 1 = s.announced := by
  obtain ⟨g, hg⟩ := Option.isSome_iff_exists.1 hgradient
  rw [members_of_hidden hg hhidden, List.length_map, length_propertyMembers, announced, hg]
  rfl

/-- The members of a style whose gradient hides nothing are its properties, and then the gradient. -/
theorem members_of_not_hidden (h : ¬ (s.gradient.isSome ∧ s.contains gradientKey)) :
    s.toJson.members
      = s.propertyMembers ++ s.gradient.toList.map fun g => (gradientKey, g.toJson) := by
  cases hg : s.gradient with
  | none => rw [members_of_no_gradient hg, Option.toList_none, List.map_nil, List.append_nil]
  | some g =>
    have hlast : s.contains gradientKey = false :=
      Bool.eq_false_iff.2 fun hcontains => h ⟨by rw [hg]; rfl, hcontains⟩
    exact members_of_last hg hlast

/-- **Nothing of a style is lost iff its gradient hides no property.** -/
theorem lossless_iff (s : Style) : s.Lossless ↔ ¬ (s.gradient.isSome ∧ s.contains gradientKey) := by
  constructor
  · rintro h ⟨hgradient, hhidden⟩
    have hshort := length_members_of_hidden hgradient hhidden
    rw [h.length_members] at hshort
    omega
  · intro h
    have hmembers := members_of_not_hidden h
    have hnames : s.lines.map Prod.fst = s.toJson.members.map Prod.fst := by
      rw [names_lines_eq, hmembers, List.map_append, List.map_map]
      rfl
    refine ⟨?_, fun name w hw => ?_, fun g hg => ?_, s.render_eq_joined_lines, hnames, ?_⟩
    · rw [hmembers, List.length_append, List.length_map, length_propertyMembers, announced]
    · rw [field?_toJson, hw]
      split
      · rename_i hname
        have hcontains : s.contains gradientKey := by rw [contains_eq_isSome, ← hname, hw]; rfl
        have hnone : s.gradient = none :=
          Option.not_isSome_iff_eq_none.1 fun hgradient => h ⟨hgradient, hcontains⟩
        rw [hnone]
        rfl
      · rfl
    · rw [field?_toJson, if_pos rfl, hg]
      rfl
    · rw [hnames]
      exact s.nodup_members

end Style

/-! ## The entries of a dictionary -/

section Entries

variable (c : Config)

/-- **An entry that writes a property of the name of the gradient.** -/
def NamesGradient (entry : String × Json) : Prop :=
  canonicalName entry.1 = Style.gradientKey ∧ (c.resolver.unwrap entry.2).isSome

/-- **An entry that sets the gradient**: a background with a text of one. -/
def SetsGradient (entry : String × Json) : Prop :=
  Rule.ofName (canonicalName entry.1) = .background ∧ ∃ s,
    c.resolver.unwrap entry.2 = some (.string s) ∧ (Gradient.parse? (Text.trim s.toList)).isSome

variable {c}
variable {entry : String × Json}

/-- Only the rule for names without one writes under the name of the gradient. -/
theorem Rule.eq_gradientKey_of_mem_targets {property : String} {r : Rule}
    (h : (Style.gradientKey, r) ∈ (ofName property).targets property) :
    property = Style.gradientKey := by
  have htable : ∀ e ∈ table, ∀ target ∈ e.2.targets e.1, target.1 ≠ Style.gradientKey := by
    decide +kernel
  rcases eq_other_or_mem_table property with hother | hmem
  · rw [hother] at h
    exact (congrArg Prod.fst (List.mem_singleton.1 h)).symm
  · exact absurd rfl (htable _ hmem _ h)

theorem contains_gradientKey_iff :
    (styleAlone c entry).contains Style.gradientKey ↔ NamesGradient c entry := by
  constructor
  · intro h
    obtain ⟨target, htarget⟩ := exists_mem_targets_of_contains h
    refine ⟨Rule.eq_gradientKey_of_mem_targets htarget, ?_⟩
    rcases patch_compileEntry_cases c entry with ⟨v, hv, -⟩ | hnothing
    · rw [hv]
      rfl
    · rw [styleAlone_eq_empty hnothing] at h
      cases h
  · rintro ⟨hname, hvalue⟩
    obtain ⟨v, hv⟩ := Option.isSome_iff_exists.1 hvalue
    have hrule : Rule.ofName Style.gradientKey = .other := by decide +kernel
    have hpatch : (compileEntry c entry).patch = .one Style.gradientKey (otherValue v) :=
      patch_compileEntry_of_ok hv (by rw [hname, hrule]; rfl)
    rw [styleAlone_eq, hpatch, Style.contains_eq_isSome, get?_apply_one, if_pos rfl]
    rfl

/-- What can be read as a gradient is the patch of a background. -/
theorem backgroundPatch_of_parse? {s : String} {g : Gradient}
    (h : Gradient.parse? (Text.trim s.toList) = some g) :
    backgroundPatch (.string s) = .ok (.ofGradient g) := by
  have hgradient : Gradient.isGradient (Text.trim s.toList) := by
    obtain ⟨body, hbody, -⟩ := Option.bind_eq_some_iff.1 h
    obtain ⟨rest, hrest, -⟩ := Option.bind_eq_some_iff.1 hbody
    rw [Gradient.isGradient, hrest]
    rfl
  unfold backgroundPatch
  dsimp only
  rw [if_pos hgradient, h]
  rfl

theorem isSome_gradient_iff : (styleAlone c entry).gradient.isSome ↔ SetsGradient c entry := by
  constructor
  · intro h
    obtain ⟨g, hg⟩ := Option.isSome_iff_exists.1 h
    obtain ⟨hrule, s, hv, hread⟩ := background_of_gradient_styleAlone hg
    exact ⟨hrule, s, hv, by rw [hread]; rfl⟩
  · rintro ⟨hrule, s, hv, hread⟩
    obtain ⟨g, hg⟩ := Option.isSome_iff_exists.1 hread
    have hpatch : (compileEntry c entry).patch = .ofGradient g :=
      patch_compileEntry_of_ok hv (by rw [hrule, Rule.patch, backgroundPatch_of_parse? hg]; rfl)
    rw [gradient_styleAlone, hpatch]
    rfl

end Entries

/-- A gradient is set iff some entry alone sets one. -/
theorem isSome_gradient_compile_iff (c : Config) (entries : List (String × Json)) :
    (compile c entries).style.gradient.isSome
      ↔ ∃ entry ∈ entries, (styleAlone c entry).gradient.isSome := by
  rw [gradient_compile, List.findSome?_isSome_iff]
  simp only [List.mem_reverse]

/-- **Nothing is lost of a dictionary unless it sets a gradient and also has a property of that
name**, whatever the spelling of the name and the order of the two. -/
theorem lossless_compile_iff (c : Config) (entries : List (String × Json)) :
    (compile c entries).style.Lossless
      ↔ ¬ ((∃ entry ∈ entries, SetsGradient c entry) ∧ ∃ entry ∈ entries, NamesGradient c entry) := by
  rw [Style.lossless_iff, isSome_gradient_compile_iff, contains_compile_iff]
  simp only [isSome_gradient_iff, contains_gradientKey_iff]

/-- **A property of the name of the gradient** is let through, and the gradient hides it: three
members are announced, and there are two. -/
theorem not_lossless_gradient_property :
    ¬ (compile {} [("background", .string "linear-gradient(red, blue)"),
        ("gradient", .string "x")]).style.Lossless := by
  intro h
  have hcounts : (compile {} [("background", .string "linear-gradient(red, blue)"),
        ("gradient", .string "x")]).style.toJson.members.length = 2
      ∧ (compile {} [("background", .string "linear-gradient(red, blue)"),
        ("gradient", .string "x")]).style.announced = 3 := by
    decide +kernel
  have hlength := h.length_members
  rw [hcounts.1, hcounts.2] at hlength
  exact absurd hlength (by decide)

end ScreenLayout
