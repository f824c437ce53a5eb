import ScreenLayout.Proofs.Style.Patches

/-!
# Proofs/Style/Logged — what happens to an entry is told

An entry that writes nothing is told of: by one debug entry of the log, which names the property.  An
entry that writes something is not.  The one entry left out of both is the border of one side with
nothing but a line style: it is no refused value, and there is no property to write.

* `Style.Accounted` — an entry writes a property, or a debug entry of the log names it.
* `compileEntry_cases` — an entry is what its rule writes, or one debug event.
* `accounted_iff_not_lineOnly` — the entries that are accounted for.
-/

namespace ScreenLayout

variable (c : Config)

/-- The debug entries of the log for one entry compiled alone. -/
def debugEntries (entry : String × Json) : List Diagnostic :=
  ((compile c [entry]).events.map StyleEvent.diagnostic).filter fun d => d.level = .debug

/-- **A diagnostic that tells of a dropped property.** -/
structure Diagnostic.TellsDropped (property : String) (d : Diagnostic) : Prop where
  message : d.message ∈ ["dropped unresolvable style property", "dropped style property"]
  names : d.fields.lookup "property" = some (.text property)

/-- **An entry is accounted for**: it writes some property and no debug entry of the log tells of it,
or it writes nothing and just one does, by its canonical name. -/
def Accounted (entry : String × Json) : Prop :=
  ((∃ name, (styleAlone c entry).contains name) ∧ debugEntries c entry = [])
    ∨ styleAlone c entry = Style.empty
      ∧ ∃ d, debugEntries c entry = [d] ∧ d.TellsDropped (canonicalName entry.1)

/-- **An entry that is the border of one side with nothing but a line style.** -/
def IsLineOnly (entry : String × Json) : Prop :=
  ∃ side s, Rule.ofName (canonicalName entry.1) = .border side ∧
    c.resolver.unwrap entry.2 = some (.string s) ∧ Shorthand.LineOnly side (Text.trim s.toList)

/-! ## Events -/

/-- What is told of unwrapping is no debug entry. -/
theorem level_of_mem_wrapperEvents {v : Json} {e : StyleEvent} (he : e ∈ wrapperEvents c v) :
    e.diagnostic.level = .trace := by
  unfold wrapperEvents at he
  split at he
  · rw [List.mem_singleton.1 he]
    rfl
  · cases he

theorem level_of_mem_itemEvents {r : Rule} {v : Json} {e : StyleEvent} (he : e ∈ itemEvents c r v) :
    e.diagnostic.level = .trace := by
  unfold itemEvents at he
  split at he
  · obtain ⟨item, -, hitem⟩ := List.mem_flatMap.1 he
    exact level_of_mem_wrapperEvents c hitem
  · cases he

/-- Of events that are only traces and some at the end, the debug entries are those at the end. -/
theorem filter_debug_append {traces : List StyleEvent} (h : ∀ e ∈ traces, e.diagnostic.level = .trace)
    (events : List StyleEvent) :
    ((traces ++ events).map StyleEvent.diagnostic).filter (fun d => d.level = .debug)
      = (events.map StyleEvent.diagnostic).filter fun d => d.level = .debug := by
  have htraces : (traces.map StyleEvent.diagnostic).filter (fun d => d.level = .debug) = [] := by
    refine List.filter_eq_nil_iff.2 fun d hd => ?_
    obtain ⟨e, he, rfl⟩ := List.mem_map.1 hd
    rw [h e he]
    decide
  rw [List.map_append, List.filter_append, htraces, List.nil_append]

variable {c}

/-- **An entry is what its rule writes, or one debug event.** -/
theorem compileEntry_cases (entry : String × Json) :
    (∃ v p, c.resolver.unwrap entry.2 = some v ∧
        (Rule.ofName (canonicalName entry.1)).patch c (canonicalName entry.1) v = .ok p ∧
        (compileEntry c entry).patch = p ∧ debugEntries c entry = [])
      ∨ (compileEntry c entry).patch = {} ∧
        ∃ d, debugEntries c entry = [d] ∧ d.TellsDropped (canonicalName entry.1) := by
  have hevents := events_compile_singleton c entry
  unfold compileEntry at hevents ⊢
  dsimp only at hevents ⊢
  rw [debugEntries, hevents]
  split
  · refine .inr ⟨rfl, (StyleEvent.unresolvable (canonicalName entry.1)).diagnostic, ?_, ?_⟩
    · rw [filter_debug_append fun e => level_of_mem_wrapperEvents c]
      rfl
    · exact ⟨List.mem_cons_self, rfl⟩
  · rename_i v hv
    split
    · rename_i p hp
      refine .inl ⟨v, p, hv, hp, rfl, ?_⟩
      rw [← List.append_nil (itemEvents c _ v), filter_debug_append fun e => level_of_mem_itemEvents c]
      rfl
    · rename_i error _
      refine .inr ⟨rfl, (StyleEvent.refused (canonicalName entry.1) error).diagnostic, ?_, ?_⟩
      · rw [filter_debug_append fun e => level_of_mem_itemEvents c]
        rfl
      · exact ⟨List.mem_cons_of_mem _ (List.mem_singleton_self _), rfl⟩

/-! ## Entries accounted for -/

/-- A patch that writes leaves a property in the style. -/
theorem exists_contains_apply {p : StylePatch} (h : p.writes ≠ []) :
    ∃ name, (Style.empty.apply p).contains name := by
  obtain ⟨front, ⟨name, w⟩, hwrites⟩ := List.eq_nil_or_concat' p.writes |>.resolve_left h
  have hlast : Properties.lastWrite? p.writes name = some w := by
    rw [Properties.lastWrite?, hwrites, List.reverse_concat]
    exact List.lookup_cons_self
  refine ⟨name, ?_⟩
  rw [Style.contains_eq_isSome, Style.get?_apply, hlast]
  rfl

/-- **The border of one side with nothing but a line style is dropped silently.** -/
theorem compile_of_lineOnly {entry : String × Json} (h : IsLineOnly c entry) :
    compile c [entry] = Compiled.nothing := by
  obtain ⟨side, s, hrule, hvalue, hline⟩ := h
  have hpatch : (Rule.border side).patch c (canonicalName entry.1) (.string s) = .ok {} :=
    congrArg (Except.mapError _) (Shorthand.borderOfText_of_lineOnly hline)
  have hentry : compileEntry c entry = {} := by
    simp only [compileEntry, hvalue, hrule, hpatch, itemEvents]
  have hstyle : (compile c [entry]).style = Style.empty :=
    styleAlone_eq_empty (congrArg CompiledEntry.patch hentry)
  have hevents : (compile c [entry]).events = [] := by
    rw [events_compile_singleton, hentry]
  rw [Compiled.nothing, ← hstyle, ← hevents]

/-- An entry without a property and without an event is not accounted for. -/
theorem not_accounted_of_nothing {entry : String × Json}
    (h : compile c [entry] = Compiled.nothing) : ¬ Accounted c entry := by
  rintro (⟨⟨name, hname⟩, -⟩ | ⟨-, d, hd, -⟩)
  · rw [styleAlone, h] at hname
    cases hname
  · rw [debugEntries, h] at hd
    cases hd

variable (c)

/-- **Every entry is accounted for, but the border of one side with nothing but a line style**, which
is dropped and told of nowhere. -/
theorem accounted_iff_not_lineOnly (entry : String × Json) :
    (Accounted c entry ↔ ¬ IsLineOnly c entry)
      ∧ (IsLineOnly c entry → compile c [entry] = Compiled.nothing) := by
  refine ⟨⟨fun haccounted hline => ?_, fun hline => ?_⟩, compile_of_lineOnly⟩
  · exact not_accounted_of_nothing (compile_of_lineOnly hline) haccounted
  · rcases compileEntry_cases entry with ⟨v, p, hv, hpatch, hp, hquiet⟩ | ⟨hp, hdropped⟩
    · refine .inl ⟨?_, hquiet⟩
      rw [styleAlone_eq, hp]
      rcases Rule.patch_cases hpatch with hplain | ⟨-, s, g, -, hg, rfl⟩ |
        ⟨side, s, hrule, rfl, hside, -⟩
      · exact exists_contains_apply hplain.writes_ne_nil
      · exact exists_contains_apply (StylePatch.writes_ofGradient_ne_nil hg)
      · exact absurd ⟨side, s, hrule, hv, hside⟩ hline
    · exact .inr ⟨styleAlone_eq_empty hp, hdropped⟩

/-- A line style for the upper border: nothing is written, and the log is empty. -/
theorem not_accounted_borderTop_solid :
    compile {} [("borderTop", .string "solid")] = Compiled.nothing
      ∧ ¬ Accounted {} ("borderTop", .string "solid") := by
  have hnothing : compile {} [("borderTop", .string "solid")] = Compiled.nothing := by
    decide +kernel
  exact ⟨hnothing, not_accounted_of_nothing hnothing⟩

end ScreenLayout
