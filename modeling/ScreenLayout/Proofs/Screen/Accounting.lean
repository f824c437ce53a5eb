import Mathlib.Data.List.Forall2
import ScreenLayout.Proofs.Component.Dispatch
import ScreenLayout.Screen

/-!
# Proofs/Screen/Accounting — every entry of a document is accounted for once

An entry is rejected with a warning that has its place in the document, or it is a section; a section
is shown, hidden, or left out because no component has its identifier.  Which of these happens
depends on the entry and the settings alone, and the order of the document is kept throughout.

* `Screen.mem_skipped_iff` — the sections left out are those whose outcome says so, at their places.
* `Screen.Accounted` — what a screen owes to the entries of its document.
* `Screen.build_accounted` — the screen of a document pays it.
-/

namespace ScreenLayout

/-! ## Entries and sections -/

namespace Document

variable (r : Resolver)

/-- The entries that are no sections, with their places from some place on and what is wrong with
them. -/
def rejectionsFrom (place : Nat) (entries : List Json) : List (Nat × SectionError) :=
  (entries.zipIdx place).filterMap fun e => match Section.ofJson r e.1 with
    | .ok _ => none
    | .error error => some (e.2, error)

theorem rejectionsFrom_cons_of_ok {place : Nat} {entry : Json} {s : Section} (entries : List Json)
    (h : Section.ofJson r entry = .ok s) :
    rejectionsFrom r place (entry :: entries) = rejectionsFrom r (place + 1) entries := by
  rw [rejectionsFrom, List.zipIdx_cons, List.filterMap_cons_none (by simp only [h])]
  rfl

theorem rejectionsFrom_cons_of_error {place : Nat} {entry : Json} {error : SectionError}
    (entries : List Json) (h : Section.ofJson r entry = .error error) :
    rejectionsFrom r place (entry :: entries)
      = (place, error) :: rejectionsFrom r (place + 1) entries := by
  rw [rejectionsFrom, List.zipIdx_cons, List.filterMap_cons_some (b := (place, error))
    (by simp only [h])]
  rfl

/-- **An entry is a section or it is rejected.** -/
theorem length_sections_add_length_rejectionsFrom (entries : List Json) (place : Nat) :
    (entries.filterMap (section? r)).length + (rejectionsFrom r place entries).length
      = entries.length := by
  induction entries generalizing place with
  | nil => rfl
  | cons entry entries ih =>
    have hrest := ih (place + 1)
    cases hentry : Section.ofJson r entry with
    | ok s =>
      rw [List.filterMap_cons_some (b := s) (by rw [section?, hentry]; rfl),
        rejectionsFrom_cons_of_ok r entries hentry, List.length_cons, List.length_cons]
      omega
    | error error =>
      rw [List.filterMap_cons_none (by rw [section?, hentry]; rfl),
        rejectionsFrom_cons_of_error r entries hentry, List.length_cons, List.length_cons]
      omega

/-- **One warning for each rejected entry**, in order and with its place. -/
theorem filterMap_entryWarning? (entries : List Json) :
    entries.zipIdx.filterMap (entryWarning? r)
      = (rejectionsFrom r 0 entries).map fun e => .malformedSection e.1 e.2 := by
  rw [rejectionsFrom, List.map_filterMap]
  refine List.filterMap_congr fun e _ => ?_
  cases h : Section.ofJson r e.1 <;> simp only [entryWarning?, h, Option.map]

end Document

namespace Screen

variable (c : Config) (dispatcher : Resolver)

/-! ## The outcome of one section -/

theorem outcome_eq_hidden_iff (s : Section) :
    outcome c dispatcher s = .skipped .hidden ↔ s.isVisible c.resolver = false := by
  rw [outcome]
  cases s.isVisible c.resolver with
  | false => simp
  | true => cases s.resolution dispatcher <;> simp

theorem outcome_eq_unrecognized_iff (s : Section) (id : String) :
    outcome c dispatcher s = .skipped (.unrecognized id)
      ↔ s.isVisible c.resolver = true ∧ s.resolution dispatcher = .unrecognized id := by
  rw [outcome]
  cases s.isVisible c.resolver with
  | false => simp
  | true => cases s.resolution dispatcher <;> simp

theorem outcome_eq_shown_iff (s : Section) (view : View) :
    outcome c dispatcher s = .shown view ↔ s.isVisible c.resolver = true
      ∧ ∃ kind, s.resolution dispatcher = .resolved kind ∧ view = View.render c kind s.props := by
  rw [outcome]
  cases s.isVisible c.resolver with
  | false => simp
  | true => cases s.resolution dispatcher <;> simp [eq_comm]

/-! ## The outcomes of all sections -/

/-- The sections left out, as they are listed among the outcomes from some place on. -/
def skippedFrom (place : Nat) (outcomes : List Outcome) : List Skipped :=
  (outcomes.zipIdx place).filterMap fun (o, index) => o.skipped? index

theorem skippedFrom_shown_cons (place : Nat) (view : View) (outcomes : List Outcome) :
    skippedFrom place (.shown view :: outcomes) = skippedFrom (place + 1) outcomes := rfl

theorem skippedFrom_skipped_cons (place : Nat) (reason : SkipReason) (outcomes : List Outcome) :
    skippedFrom place (.skipped reason :: outcomes)
      = ⟨place, reason⟩ :: skippedFrom (place + 1) outcomes := rfl

theorem skipped_ofSections (sections : List Section) :
    (ofSections c dispatcher sections).skipped
      = skippedFrom 0 (sections.map (outcome c dispatcher)) := rfl

/-- Each outcome is a view or a section left out, never both. -/
theorem length_views_add_length_skippedFrom (outcomes : List Outcome) (place : Nat) :
    (outcomes.filterMap Outcome.view?).length + (skippedFrom place outcomes).length
      = outcomes.length := by
  induction outcomes generalizing place with
  | nil => rfl
  | cons o outcomes ih =>
    have hrest := ih (place + 1)
    cases o with
    | shown view =>
      rw [List.filterMap_cons_some (show Outcome.view? (.shown view) = some view from rfl),
        skippedFrom_shown_cons, List.length_cons, List.length_cons]
      omega
    | skipped reason =>
      rw [List.filterMap_cons_none (show Outcome.view? (.skipped reason) = none from rfl),
        skippedFrom_skipped_cons, List.length_cons, List.length_cons]
      omega

theorem pairwise_skippedFrom (outcomes : List Outcome) (place : Nat) :
    (skippedFrom place outcomes).Pairwise fun a b => a.index < b.index := by
  have hplaces : (outcomes.zipIdx place).Pairwise fun a b => a.2 < b.2 := by
    rw [← List.pairwise_map (f := Prod.snd) (R := (· < ·)), List.zipIdx_map_snd]
    exact List.pairwise_lt_range'
  refine List.Pairwise.filterMap _ ?_ hplaces
  rintro ⟨o, i⟩ ⟨o', j⟩ hij a ha b hb
  cases o with
  | shown => cases ha
  | skipped reason =>
    cases o' with
    | shown => cases hb
    | skipped reason' =>
      obtain rfl := Option.some.inj ha
      obtain rfl := Option.some.inj hb
      exact hij

/-- **A section is left out iff its outcome says so**, under its place among the sections. -/
theorem mem_skipped_iff (sections : List Section) (index : Nat) (reason : SkipReason) :
    ⟨index, reason⟩ ∈ (ofSections c dispatcher sections).skipped
      ↔ ∃ s, sections[index]? = some s ∧ outcome c dispatcher s = .skipped reason := by
  rw [skipped_ofSections, skippedFrom, List.mem_filterMap]
  constructor
  · rintro ⟨⟨o, i⟩, hmem, ho⟩
    rw [List.mk_mem_zipIdx_iff_getElem?, List.getElem?_map] at hmem
    obtain ⟨s, hs, rfl⟩ := Option.map_eq_some_iff.1 hmem
    cases hout : outcome c dispatcher s with
    | shown view => rw [hout] at ho; cases ho
    | skipped r =>
      rw [hout] at ho
      cases ho
      exact ⟨s, hs, hout⟩
  · rintro ⟨s, hs, hout⟩
    refine ⟨(outcome c dispatcher s, index), ?_, ?_⟩
    · rw [List.mk_mem_zipIdx_iff_getElem?, List.getElem?_map, hs]
      rfl
    · rw [hout]
      rfl

theorem mem_skipped_iff_of_getElem? {sections : List Section} {index : Nat} {s : Section}
    (hs : sections[index]? = some s) (reason : SkipReason) :
    ⟨index, reason⟩ ∈ (ofSections c dispatcher sections).skipped
      ↔ outcome c dispatcher s = .skipped reason := by
  rw [mem_skipped_iff, hs]
  simp only [Option.some.injEq, exists_eq_left']

theorem index_lt_of_mem_skipped {sections : List Section} {s : Skipped}
    (h : s ∈ (ofSections c dispatcher sections).skipped) : s.index < sections.length := by
  obtain ⟨t, ht, -⟩ := (mem_skipped_iff c dispatcher sections s.index s.reason).1 h
  exact (List.getElem?_eq_some_iff.1 ht).1

/-! ## The views -/

/-- The sections whose place is not among those left out. -/
def keptSections (sections : List Section) (skipped : List Skipped) : List Section :=
  (sections.zipIdx.filter fun e => e.2 ∉ skipped.map Skipped.index).map Prod.fst

/-- **A view is that of a section** by the component the section asks for, which is its kind. -/
def IsViewOf (s : Section) (view : View) : Prop :=
  s.isVisible c.resolver = true ∧ ∃ kind, s.resolution dispatcher = .resolved kind
    ∧ view = View.render c kind s.props ∧ view.kind = kind

theorem isViewOf_of_outcome {s : Section} {view : View}
    (h : outcome c dispatcher s = .shown view) : IsViewOf c dispatcher s view := by
  obtain ⟨hvisible, kind, hkind, rfl⟩ := (outcome_eq_shown_iff c dispatcher s view).1 h
  exact ⟨hvisible, kind, hkind, rfl, View.kind_render c kind s.props⟩

theorem Outcome.isSome_view?_iff (o : Outcome) :
    o.view?.isSome ↔ ¬ ∃ reason, o = .skipped reason := by
  cases o with
  | shown view => exact iff_of_true rfl fun ⟨_, h⟩ => nomatch h
  | skipped reason => exact iff_of_false Bool.false_ne_true fun h => h ⟨reason, rfl⟩

/-- A section is kept by its place iff it is kept by its outcome. -/
theorem keptSections_ofSections (sections : List Section) :
    keptSections sections (ofSections c dispatcher sections).skipped
      = sections.filter fun s => (outcome c dispatcher s).view?.isSome := by
  have hplace : ∀ e ∈ sections.zipIdx,
      decide (e.2 ∉ (ofSections c dispatcher sections).skipped.map Skipped.index)
        = (outcome c dispatcher e.1).view?.isSome := by
    rintro ⟨s, index⟩ he
    have hs : sections[index]? = some s := List.mk_mem_zipIdx_iff_getElem?.1 he
    have hleft : index ∈ (ofSections c dispatcher sections).skipped.map Skipped.index
        ↔ ∃ reason, outcome c dispatcher s = .skipped reason := by
      constructor
      · intro hmem
        obtain ⟨⟨i, reason⟩, hskipped, rfl⟩ := List.mem_map.1 hmem
        obtain ⟨t, ht, hout⟩ := (mem_skipped_iff c dispatcher sections i reason).1 hskipped
        obtain rfl : s = t := Option.some.inj (hs.symm.trans ht)
        exact ⟨reason, hout⟩
      · rintro ⟨reason, hout⟩
        exact List.mem_map.2
          ⟨_, (mem_skipped_iff c dispatcher sections index reason).2 ⟨s, hs, hout⟩, rfl⟩
    rw [Bool.eq_iff_iff, decide_eq_true_iff, hleft]
    exact (Outcome.isSome_view?_iff _).symm
  have hfst : sections.zipIdx.map Prod.fst = sections := List.zipIdx_map_fst 0 sections
  conv_rhs => rw [← hfst, List.filter_map]
  exact congrArg _ (List.filter_congr hplace)

/-- **The views are those of the kept sections**, one for one and in order. -/
theorem forall₂_views_ofSections (sections : List Section) :
    List.Forall₂ (IsViewOf c dispatcher)
      (keptSections sections (ofSections c dispatcher sections).skipped)
      (ofSections c dispatcher sections).views := by
  rw [keptSections_ofSections]
  change List.Forall₂ _ _ ((sections.map (outcome c dispatcher)).filterMap Outcome.view?)
  induction sections with
  | nil => exact .nil
  | cons s sections ih =>
    cases hout : outcome c dispatcher s with
    | shown view =>
      rw [List.filter_cons_of_pos (by rw [hout]; rfl), List.map_cons,
        List.filterMap_cons_some (b := view) (by rw [hout]; rfl)]
      exact .cons (isViewOf_of_outcome c dispatcher hout) ih
    | skipped reason =>
      rw [List.filter_cons_of_neg (by rw [hout]; exact Bool.false_ne_true), List.map_cons,
        List.filterMap_cons_none (by rw [hout]; rfl)]
      exact ih

/-! ## The warnings -/

/-- The identifier that was not registered, if that is why a section was left out. -/
def unregisteredId? (s : Skipped) : Option String :=
  match s.reason with
  | .hidden => none
  | .unrecognized id => some id

theorem warnings_skippedFrom (outcomes : List Outcome) (place : Nat) :
    outcomes.filterMap Outcome.warning?
      = ((skippedFrom place outcomes).filterMap unregisteredId?).map .unregisteredComponent := by
  induction outcomes generalizing place with
  | nil => rfl
  | cons o outcomes ih =>
    have hrest := ih (place + 1)
    rcases o with view | _ | id
    · exact hrest
    · exact hrest
    · exact congrArg (List.cons (Warning.unregisteredComponent id)) hrest

/-- **One warning for each section left out for its identifier**, in order. -/
theorem warnings_ofSections (sections : List Section) :
    (ofSections c dispatcher sections).warnings
      = ((ofSections c dispatcher sections).skipped.filterMap unregisteredId?).map
          .unregisteredComponent :=
  warnings_skippedFrom _ 0

/-! ## The screen of a document -/

/-- **What a screen owes to the entries of its document**: those that describe a section are the
sections, each of them is shown or left out with a reason at its place, the views are those of the
others in order, and the warnings name every rejected entry by its place among the entries and then
every identifier that is not registered. -/
structure Accounted (entries : List Json) (sections : List Section) (screen : Screen) : Prop where
  sections_eq : sections = entries.filterMap fun entry => (Section.ofJson c.resolver entry).toOption
  length_entries :
    sections.length + (Document.rejectionsFrom c.resolver 0 entries).length = entries.length
  length_sections : screen.views.length + screen.skipped.length = sections.length
  increasing : screen.skipped.Pairwise fun a b => a.index < b.index
  index_lt : ∀ s ∈ screen.skipped, s.index < sections.length
  views_eq : List.Forall₂ (IsViewOf c dispatcher) (keptSections sections screen.skipped) screen.views
  hidden_iff : ∀ index s, sections[index]? = some s →
    (⟨index, .hidden⟩ ∈ screen.skipped ↔ s.isVisible c.resolver = false)
  unrecognized_iff : ∀ index s id, sections[index]? = some s →
    (⟨index, .unrecognized id⟩ ∈ screen.skipped ↔ s.isVisible c.resolver = true
      ∧ ComponentKind.ofId? (s.namedId dispatcher) = none ∧ id = s.namedId dispatcher)
  warnings_eq : screen.warnings
    = (Document.rejectionsFrom c.resolver 0 entries).map (fun e => .malformedSection e.1 e.2)
      ++ (screen.skipped.filterMap unregisteredId?).map .unregisteredComponent

/-- **The screen of a document accounts for its entries**, whatever resolver reads identifiers. -/
theorem buildWith_accounted {doc : Json} {entries : List Json}
    (h : Document.entries? c.resolver doc = some entries) :
    Accounted c dispatcher entries (Document.parse c.resolver doc).sections
      (buildWith c dispatcher doc) := by
  have hparse : Document.parse c.resolver doc
      = ⟨entries.filterMap (Document.section? c.resolver),
          entries.zipIdx.filterMap (Document.entryWarning? c.resolver)⟩ := by
    rw [Document.parse, h]
  have hbuild : ∀ sections warnings, Document.parse c.resolver doc = ⟨sections, warnings⟩ →
      buildWith c dispatcher doc = { ofSections c dispatcher sections with
        warnings := warnings ++ (ofSections c dispatcher sections).warnings } := by
    intro sections warnings hsections
    rw [buildWith, hsections]
  rw [hbuild _ _ hparse, hparse]
  exact {
    sections_eq := rfl
    length_entries := Document.length_sections_add_length_rejectionsFrom c.resolver entries 0
    length_sections := (length_views_add_length_skippedFrom _ 0).trans (List.length_map _)
    increasing := pairwise_skippedFrom _ 0
    index_lt := fun s hs => index_lt_of_mem_skipped c dispatcher hs
    views_eq := forall₂_views_ofSections c dispatcher _
    hidden_iff := fun index s hs => (mem_skipped_iff_of_getElem? c dispatcher hs _).trans
      (outcome_eq_hidden_iff c dispatcher s)
    unrecognized_iff := fun index s id hs => (mem_skipped_iff_of_getElem? c dispatcher hs _).trans
      ((outcome_eq_unrecognized_iff c dispatcher s id).trans
        (and_congr_right fun _ => s.resolution_eq_unrecognized_iff dispatcher id))
    warnings_eq := congr (congrArg _ (Document.filterMap_entryWarning? c.resolver entries))
      (warnings_ofSections c dispatcher _) }

/-- **Every entry of a document is accounted for once**; a document that leads to no entries gives one
warning and nothing else. -/
theorem build_accounted (doc : Json) :
    match Document.entries? c.resolver doc with
    | none => build c doc = ⟨[], [], [.noSectionList]⟩
    | some entries => Accounted c c.resolver entries (Document.parse c.resolver doc).sections
        (build c doc) := by
  split
  · rename_i h
    rw [build, buildWith, Document.parse, h]
    rfl
  · rename_i entries h
    exact buildWith_accounted c c.resolver h

end Screen

end ScreenLayout
