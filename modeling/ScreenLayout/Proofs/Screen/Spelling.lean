import ScreenLayout.Proofs.Document.Wrapping
import ScreenLayout.Proofs.View.Props
import ScreenLayout.Screen

/-!
# Proofs/Screen/Spelling — one section, written in four ways

The props of a section stand beside its component, or under a key of their own, plainly or in a
wrapper:

    {component: C, title: T}   {component: C, props: {title: T}}   {component: C, props: {value: {title: T}}}

The section that is read from each has the same component and the same visibility block, and its props
agree on every key that is read; the key `component` among the props is read by nobody.  So the outcome
is the same, and a screen depends on the outcomes alone.

* `Screen.outcome_eq_of_agreeOn` — sections that agree come to the same.
* `Section.ofJson_spelled` — what is read from each spelling.
* `Screen.build_spelled` — every spelling gives the same screen, among whatever other entries.
-/

namespace ScreenLayout

namespace Section

/-! ## The spellings -/

/-- **The ways to write a section**: the props beside the component, under either key for them, or
there in a wrapper. -/
inductive Spelling where
  | inline
  | props
  | properties
  | wrapped
deriving DecidableEq

/-- **A section as it is written**, for a component and the fields of its props. -/
def spelled (component : Json) (fields : List (String × Json)) : Spelling → Json
  | .inline => .object (("component", component) :: fields)
  | .props => .object [("component", component), ("props", .object fields)]
  | .properties => .object [("component", component), ("properties", .object fields)]
  | .wrapped => .object [("component", component), ("props", .wrap "value" (.object fields))]

/-- The props of a section as they are written. -/
def spelledProps (component : Json) (fields : List (String × Json)) : Spelling → Json
  | .inline => .object (("component", component) :: fields)
  | .props | .properties => .object fields
  | .wrapped => .wrap "value" (.object fields)

/-- The keys that mean something beside a component or around its props. -/
def reservedKeys : List String := ["component", "props", "properties", "value", "const"]

/-- **A spelling is within a bound**: a wrapper around the props takes one from it. -/
def Spelling.Within (bound : Nat) (how : Spelling) : Prop := how = .wrapped → 1 ≤ bound

variable {r : Resolver} {component : Json} {fields : List (String × Json)} {how : Spelling}

theorem field?_component_spelled :
    (spelled component fields how).field? "component" = some component := by
  cases how <;> rfl

theorem namesComponent_spelled : namesComponent (spelled component fields how) := by
  rw [namesComponent, Json.firstField?, componentKeys, List.findSome?_cons, field?_component_spelled]
  rfl

/-- **The component counts**, whatever other keys for one stand among the fields. -/
theorem component?_spelled (hcomponent : (r.text? (some component)).isSome) :
    component? r (spelled component fields how) = some component := by
  have hfirst : ∀ keys : List String,
      ("component" :: keys).filterMap ((spelled component fields how).field? ·)
        = component :: keys.filterMap ((spelled component fields how).field? ·) :=
    fun _ => List.filterMap_cons_some field?_component_spelled
  rw [component?, componentKeys, hfirst]
  exact List.find?_cons_of_pos hcomponent

section Fields

variable (hfields : ∀ key ∈ reservedKeys, fields.lookup key = none)

include hfields

/-- The fields beside the component are the props where no key for props is among them. -/
theorem propsOf_spelled :
    propsOf (spelled component fields how) = spelledProps component fields how := by
  cases how with
  | inline =>
    have hprops : fields.lookup "props" = none := hfields "props" (by decide)
    have hproperties : fields.lookup "properties" = none := hfields "properties" (by decide)
    have hnone : (Json.object (("component", component) :: fields)).firstField? propsKeys = none := by
      refine List.findSome?_eq_none_iff.2 fun key hkey => ?_
      obtain rfl | rfl : key = "props" ∨ key = "properties" := by simpa [propsKeys] using hkey
      · exact hprops
      · exact hproperties
    rw [spelled, propsOf, hnone]
    rfl
  | _ => rfl

/-- No wrapper key is among the fields. -/
theorem wrapped?_fields : (Json.object fields).wrapped? = none := by
  have hreserved : ∀ key ∈ wrapperKeys, key ∈ reservedKeys := by decide
  exact List.findSome?_eq_none_iff.2 fun key hkey => hfields key (hreserved key hkey)

theorem hasRoom_fields (hwithin : Spelling.Within r.bound .wrapped) :
    r.HasRoom "value" (.object fields) :=
  Resolver.hasRoom_of_wrapped?_eq_none (by decide) (wrapped?_fields hfields) nofun (hwithin rfl)

/-- **The props agree with the fields** on every key but that of the component. -/
theorem agreeOn_spelledProps {keys : List String} (hkeys : "component" ∉ keys)
    (hwithin : how.Within r.bound) :
    r.AgreeOn keys (spelledProps component fields how) (.object fields) := by
  cases how with
  | inline => exact (agreeOn_of_respelling (.unread [] fields component (by decide) hkeys)).symm
  | props | properties => exact .refl _
  | wrapped =>
    exact (agreeOn_of_respelling (.props (by decide) (hasRoom_fields hfields hwithin))).symm

/-- **The visibility block is that among the fields**, found beside the component or among the
props. -/
theorem visibilityOf_spelled (hwithin : how.Within r.bound) :
    visibilityOf r (spelled component fields how) = fields.lookup visibilityKey := by
  have hread : r.field? (.object fields) visibilityKey = fields.lookup visibilityKey :=
    r.field?_object (wrapped?_fields hfields) visibilityKey
  rw [visibilityOf, propsOf_spelled hfields]
  cases how with
  | inline =>
    have hinline : (Json.object (("component", component) :: fields)).wrapped? = none := by
      refine List.findSome?_eq_none_iff.2 fun key hkey => ?_
      have hne : key ≠ "component" := by
        rintro rfl
        exact absurd hkey (by decide)
      have hnone := List.findSome?_eq_none_iff.1 (wrapped?_fields hfields) key hkey
      exact (lookup_around_of_ne [] fields component hne).trans hnone
    have hbeside : (spelled component fields .inline).field? visibilityKey
        = fields.lookup visibilityKey := rfl
    have hamong : r.field? (spelledProps component fields .inline) visibilityKey
        = fields.lookup visibilityKey := r.field?_object hinline visibilityKey
    rw [hbeside, hamong]
    cases fields.lookup visibilityKey <;> rfl
  | props | properties => exact hread
  | wrapped =>
    have hroom := hasRoom_fields hfields hwithin
    have hamong : r.field? (.wrap "value" (.object fields)) visibilityKey
        = fields.lookup visibilityKey := by
      rw [← hread, Resolver.field?, Resolver.unwrap_wrap_of_hasRoom (by decide) hroom]
      rfl
    exact hamong

/-- **What is read from each spelling**: one component, one visibility block, and the props as they
are written. -/
theorem ofJson_spelled (hcomponent : (r.text? (some component)).isSome)
    (hwithin : how.Within r.bound) :
    ofJson r (spelled component fields how)
      = .ok ⟨component, spelledProps component fields how, fields.lookup visibilityKey⟩ := by
  have hsource : sourceObject r (spelled component fields how)
      = .ok (spelled component fields how) := if_pos namesComponent_spelled
  rw [ofJson, hsource]
  dsimp only
  rw [component?_spelled hcomponent]
  dsimp only
  rw [propsOf_spelled hfields, visibilityOf_spelled hfields hwithin]

end Fields

end Section

namespace Screen

variable (c : Config) (dispatcher : Resolver)

/-! ## Outcomes -/

/-- **Sections that agree come to the same**: their component and visibility are the same, and their
props agree on the keys of dispatch and on those of every component. -/
theorem outcome_eq_of_agreeOn {s t : Section} (hcomponent : s.component = t.component)
    (hvisibility : s.visibility = t.visibility)
    (hdispatch : dispatcher.AgreeOn Section.dispatchKeys s.props t.props)
    (hprops : ∀ kind, c.resolver.AgreeOn (ComponentKind.propKeys kind) s.props t.props) :
    outcome c dispatcher s = outcome c dispatcher t := by
  have hvisible : s.isVisible c.resolver = t.isVisible c.resolver := by
    unfold Section.isVisible
    rw [hvisibility]
  have hresolution : s.resolution dispatcher = t.resolution dispatcher :=
    Section.resolution_eq_of_agreeOn hcomponent hdispatch
  unfold outcome
  rw [hvisible, hresolution]
  cases t.resolution dispatcher with
  | resolved kind =>
    dsimp only
    rw [View.render_eq_of_agreeOn kind (hprops kind)]
  | unrecognized id => rfl

/-- **A screen depends on the outcomes** of the sections, and on the warnings of the document. -/
theorem buildWith_congr {doc doc' : Json}
    (hwarnings : (Document.parse c.resolver doc).warnings = (Document.parse c.resolver doc').warnings)
    (houtcomes : (Document.parse c.resolver doc).sections.map (outcome c dispatcher)
      = (Document.parse c.resolver doc').sections.map (outcome c dispatcher)) :
    buildWith c dispatcher doc = buildWith c dispatcher doc' := by
  simp only [buildWith, ofSections, hwarnings, houtcomes]

/-- **An entry may be exchanged** for one that is a section with the same outcome. -/
theorem buildWith_exchange {v w : Json} {s t : Section}
    (hv : Section.ofJson c.resolver v = .ok s) (hw : Section.ofJson c.resolver w = .ok t)
    (houtcome : outcome c dispatcher s = outcome c dispatcher t) (before after : List Json) :
    buildWith c dispatcher (.array (before ++ v :: after))
      = buildWith c dispatcher (.array (before ++ w :: after)) := by
  have hparse : ∀ u x, Section.ofJson c.resolver u = .ok x →
      Document.parse c.resolver (.array (before ++ u :: after)) =
        ⟨before.filterMap (Document.section? c.resolver) ++
            x :: after.filterMap (Document.section? c.resolver),
          before.zipIdx.filterMap (Document.entryWarning? c.resolver) ++
            (after.zipIdx (before.length + 1)).filterMap (Document.entryWarning? c.resolver)⟩ := by
    intro u x hu
    have hsection : Document.section? c.resolver u = some x := by rw [Document.section?, hu]; rfl
    have hwarning : ∀ i, Document.entryWarning? c.resolver (u, i) = none := by
      intro i
      rw [Document.entryWarning?, hu]
    rw [Document.parse_array, Document.filterMap_around, List.zipIdx_append, Nat.zero_add,
      List.zipIdx_cons, Document.filterMap_around, hsection, hwarning]
    rfl
  refine buildWith_congr c dispatcher ?_ ?_
  · rw [hparse v s hv, hparse w t hw]
  · rw [hparse v s hv, hparse w t hw, List.map_append, List.map_append, List.map_cons, List.map_cons,
      houtcome]

/-! ## One screen for all spellings -/

/-- **Every spelling of a section comes to the same.** -/
theorem outcome_spelled (component : Json) {fields : List (String × Json)}
    (hfields : ∀ key ∈ Section.reservedKeys, fields.lookup key = none) (how : Section.Spelling)
    (hwithin : how.Within c.resolver.bound) (hdispatch : how.Within dispatcher.bound)
    (visibility : Option Json) :
    outcome c dispatcher ⟨component, Section.spelledProps component fields how, visibility⟩
      = outcome c dispatcher ⟨component, .object fields, visibility⟩ := by
  have hpropKeys : ∀ kind, "component" ∉ ComponentKind.propKeys kind := by
    intro kind
    cases kind <;> decide
  exact outcome_eq_of_agreeOn c dispatcher rfl rfl
    (Section.agreeOn_spelledProps hfields (by decide) hdispatch)
    fun kind => Section.agreeOn_spelledProps hfields (hpropKeys kind) hwithin

/-- **All spellings of a section give one screen**, whatever entries stand around it: the views, the
sections left out and the warnings are the same, for every component that resolves to a text and all
fields that hold no key of a section or a wrapper. -/
theorem build_spelled {component : Json} (hcomponent : (c.resolver.text? (some component)).isSome)
    {fields : List (String × Json)}
    (hfields : ∀ key ∈ Section.reservedKeys, fields.lookup key = none) {how other : Section.Spelling}
    (hhow : how.Within c.maxDepth) (hother : other.Within c.maxDepth) (before after : List Json) :
    build c (.array (before ++ Section.spelled component fields how :: after))
      = build c (.array (before ++ Section.spelled component fields other :: after)) := by
  refine buildWith_exchange c c.resolver (Section.ofJson_spelled hfields hcomponent hhow)
    (Section.ofJson_spelled hfields hcomponent hother) ?_ before after
  rw [outcome_spelled c c.resolver component hfields how hhow hhow,
    outcome_spelled c c.resolver component hfields other hother hother]

/-- The props of a header for mobile screens, shown on phones; they name another component too. -/
def headerFields : List (String × Json) :=
  [("title", .string "Shop (mobile)"), ("type", .string "banner"),
    ("visibility", .object [("target", .string "phone")])]

/-- A header is one on mobile screens, with its props beside it and in a wrapper. -/
theorem build_spelled_header :
    ((Config.resolver {}).text? (some (.wrap "const" (.string "Header")))).isSome
      ∧ (∀ key ∈ Section.reservedKeys, headerFields.lookup key = none)
      ∧ Section.Spelling.Within (Config.maxDepth {}) .wrapped
      ∧ build {} (.array [Section.spelled (.wrap "const" (.string "Header")) headerFields .inline])
        = build {} (.array [Section.spelled (.wrap "const" (.string "Header")) headerFields .wrapped])
      ∧ (build {} (.array [Section.spelled (.wrap "const" (.string "Header")) headerFields
          .inline])).views.map View.kind = [.mobileHeader] := by
  have hcomponent : ((Config.resolver {}).text? (some (.wrap "const" (.string "Header")))).isSome := rfl
  have hfields : ∀ key ∈ Section.reservedKeys, headerFields.lookup key = none := by decide
  have hwithin : Section.Spelling.Within (Config.maxDepth {}) .wrapped := fun _ => by decide
  exact ⟨hcomponent, hfields, hwithin,
    build_spelled {} hcomponent hfields (fun h => absurd h (by decide)) hwithin [] [],
    by decide +kernel⟩

end Screen

end ScreenLayout
