import ScreenLayout.Proofs.Style.InPlace
import ScreenLayout.Proofs.Style.Merge

/-!
# Proofs/Style/Entrywise — a dictionary compiles entry by entry

No rule reads, removes or half writes what earlier entries wrote: an entry compiled into any style lays
over it what it writes alone.  So a compiled dictionary is the merge of its entries compiled alone, in
their order, and its events are theirs one after the other.  The last entry that writes a property
gives its value, so a dictionary splits anywhere and entries that share nothing may change places.

* `compileInto_eq_merge` — one entry, compiled into anything.
* `style_compile_eq_overlaid` — the style is the merge of the entries' own styles; `get?_compile`,
  `gradient_compile` — the last of them answers.
* `compile_entrywise` — that, with what it says about properties, gradient and events, for parts of a
  dictionary and for neighbours exchanged.
-/

namespace ScreenLayout

/-- The style of one entry compiled alone. -/
def styleAlone (c : Config) (entry : String × Json) : Style := (compile c [entry]).style

variable (c : Config)

theorem styleAlone_eq (entry : String × Json) :
    styleAlone c entry = Style.empty.apply (compileEntry c entry).patch :=
  style_compile_eq_foldl c [entry]

/-- What an entry writes alone is read through the last write of its patch to a name. -/
theorem get?_styleAlone (entry : String × Json) (name : String) :
    (styleAlone c entry).get? name
      = Properties.lastWrite? (compileEntry c entry).patch.writes name := by
  rw [styleAlone_eq, Style.get?_apply, Style.get?_empty, Option.or_none]

theorem gradient_styleAlone (entry : String × Json) :
    (styleAlone c entry).gradient = (compileEntry c entry).patch.gradient := by
  rw [styleAlone_eq, Style.gradient_apply]
  exact Option.or_none

/-- The events of one entry do not depend on those beside it. -/
theorem events_compile_singleton (entry : String × Json) :
    (compile c [entry]).events = (compileEntry c entry).events :=
  (events_compile_eq_flatMap c [entry]).trans (List.flatMap_singleton _ _)

/-- **An entry compiled into anything** lays over it what it writes alone, and tells what it tells
alone. -/
theorem compileInto_eq_merge (out : Compiled) (entry : String × Json) :
    compileInto c out entry = { style := out.style.merge (styleAlone c entry)
                                events := out.events ++ (compile c [entry]).events } := by
  rw [compileInto_eq, styleAlone_eq, ← Style.apply_eq_merge, events_compile_singleton]

/-- **The style of a dictionary is the merge of its entries' own styles.** -/
theorem style_compile_eq_overlaid (entries : List (String × Json)) :
    (compile c entries).style = Style.overlaid (entries.map (styleAlone c)) := by
  have hstep : (fun (s : Style) (entry : String × Json) => s.apply (compileEntry c entry).patch)
      = fun s entry => s.merge (styleAlone c entry) := by
    refine funext fun s => funext fun entry => ?_
    rw [styleAlone_eq, ← Style.apply_eq_merge]
  rw [style_compile_eq_foldl, Style.overlaid, List.foldl_map, ← hstep]

/-- **Parts of a dictionary are compiled apart and merged.** -/
theorem compile_append_eq_merge (front back : List (String × Json)) :
    compile c (front ++ back) = { style := (compile c front).style.merge (compile c back).style
                                  events := (compile c front).events ++ (compile c back).events } := by
  have hstyle : (compile c (front ++ back)).style
      = (compile c front).style.merge (compile c back).style := by
    rw [style_compile_eq_overlaid, style_compile_eq_overlaid, style_compile_eq_overlaid,
      List.map_append, Style.overlaid_append]
  have hevents : (compile c (front ++ back)).events
      = (compile c front).events ++ (compile c back).events := by
    rw [events_compile_eq_flatMap, events_compile_eq_flatMap, events_compile_eq_flatMap,
      List.flatMap_append]
  rw [← hstyle, ← hevents]

/-- **The last entry that writes a property gives its value.** -/
theorem get?_compile (entries : List (String × Json)) (name : String) :
    (compile c entries).style.get? name
      = entries.reverse.findSome? fun entry => (styleAlone c entry).get? name := by
  rw [style_compile_eq_overlaid, Style.get?_overlaid, ← List.map_reverse, List.findSome?_map]
  rfl

/-- **The last entry that sets a gradient gives it.** -/
theorem gradient_compile (entries : List (String × Json)) :
    (compile c entries).style.gradient
      = entries.reverse.findSome? fun entry => (styleAlone c entry).gradient := by
  rw [style_compile_eq_overlaid, Style.gradient_overlaid, ← List.map_reverse, List.findSome?_map]
  rfl

/-- **A property is written iff some entry alone writes it.** -/
theorem contains_compile_iff (entries : List (String × Json)) (name : String) :
    (compile c entries).style.contains name
      ↔ ∃ entry ∈ entries, (styleAlone c entry).contains name := by
  rw [Style.contains_eq_isSome, get?_compile, List.findSome?_isSome_iff]
  simp only [List.mem_reverse]
  rfl

/-- **Neighbours that share nothing may change places.** -/
theorem style_compile_swap (front back : List (String × Json)) {a b : String × Json}
    (h : ∀ name, (styleAlone c a).contains name → ¬ (styleAlone c b).contains name)
    (hgradient : ¬ ((styleAlone c a).gradient.isSome ∧ (styleAlone c b).gradient.isSome)) :
    (compile c (front ++ b :: a :: back)).style = (compile c (front ++ a :: b :: back)).style := by
  have hpair : ∀ x y : String × Json, (compile c (front ++ x :: y :: back)).style
      = ((compile c front).style.merge ((styleAlone c x).merge (styleAlone c y))).merge
          (compile c back).style := by
    intro x y
    have hcons : front ++ x :: y :: back = front ++ ([x] ++ [y]) ++ back := by simp
    rw [hcons, compile_append_eq_merge, compile_append_eq_merge, compile_append_eq_merge]
    rfl
  rw [hpair, hpair, Style.merge_comm_of_disjoint h hgradient]

/-- **A dictionary compiles entry by entry, and the last write wins**: into any style an entry writes
what it writes alone, and nothing else changes; properties, gradient and events are those of the
entries compiled alone, parts of a dictionary are merged, and two neighbours that write no common
property and do not both set a gradient may change places. -/
theorem compile_entrywise (entries : List (String × Json)) :
    (∀ (out : Compiled) (entry : String × Json),
        compileInto c out entry = { style := out.style.merge (styleAlone c entry)
                                    events := out.events ++ (compile c [entry]).events })
      ∧ (compile c entries).style = Style.overlaid (entries.map (styleAlone c))
      ∧ (∀ name, (compile c entries).style.contains name
          ↔ ∃ entry ∈ entries, (styleAlone c entry).contains name)
      ∧ (∀ name, (compile c entries).style.get? name
          = entries.reverse.findSome? fun entry => (styleAlone c entry).get? name)
      ∧ ((compile c entries).style.gradient
          = entries.reverse.findSome? fun entry => (styleAlone c entry).gradient)
      ∧ ((compile c entries).events = entries.flatMap fun entry => (compile c [entry]).events)
      ∧ (∀ front back, entries = front ++ back →
          (compile c entries).style = (compile c front).style.merge (compile c back).style
            ∧ (compile c entries).events = (compile c front).events ++ (compile c back).events)
      ∧ (∀ front a b back, entries = front ++ a :: b :: back →
          (∀ name, (styleAlone c a).contains name → ¬ (styleAlone c b).contains name) →
          ¬ ((styleAlone c a).gradient.isSome ∧ (styleAlone c b).gradient.isSome) →
          (compile c (front ++ b :: a :: back)).style = (compile c entries).style) := by
  refine ⟨compileInto_eq_merge c, style_compile_eq_overlaid c entries, contains_compile_iff c entries,
    get?_compile c entries, gradient_compile c entries, ?_, ?_, ?_⟩
  · rw [events_compile_eq_flatMap]
    exact congrArg entries.flatMap (funext fun entry => (events_compile_singleton c entry).symm)
  · rintro front back rfl
    rw [compile_append_eq_merge]
    exact ⟨rfl, rfl⟩
  · rintro front a b back rfl h hgradient
    exact style_compile_swap c front back h hgradient

/-- A width and a gradient share nothing, so they may change places before an opacity; and a shorthand
that is refused leaves what stands in a style, and tells of itself at the end of the log. -/
theorem compile_entrywise_width_background :
    (compile {} [("background", .string "linear-gradient(red, blue)"), ("width", .string "1px"),
        ("opacity", .string "0.5")]).style
      = (compile {} [("width", .string "1px"), ("background", .string "linear-gradient(red, blue)"),
        ("opacity", .string "0.5")]).style
      ∧ (compile {} [("background", .string "linear-gradient(red, blue)"), ("width", .string "1px"),
        ("opacity", .string "0.5")]).style.get? "backgroundColor" = some (.text "red")
      ∧ compileInto {} ⟨Style.empty.insert "fontSize" (.number FiniteDouble.one), []⟩
          ("font", .string "bold 12px")
        = ⟨Style.empty.insert "fontSize" (.number FiniteDouble.one),
          [.refused "font" (.invalidValue "font" (.noFontFamily "bold 12px"))]⟩ := by
  obtain ⟨hinto, -, -, -, -, -, -, hswap⟩ := compile_entrywise {} [("width", .string "1px"),
    ("background", .string "linear-gradient(red, blue)"), ("opacity", .string "0.5")]
  refine ⟨hswap [] _ _ [_] rfl (fun name hname => ?_) ?_, by decide +kernel,
    (hinto _ _).trans (by decide +kernel)⟩
  · have hwidth : styleAlone {} ("width", .string "1px")
        = Style.empty.insert "width" (.number FiniteDouble.one) := by decide +kernel
    rw [hwidth, Style.contains_eq_isSome, Style.get?_insert] at hname
    obtain rfl : name = "width" := Decidable.of_not_not fun hne => by simp [hne] at hname
    decide +kernel
  · decide +kernel

end ScreenLayout
