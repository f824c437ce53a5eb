import ScreenLayout.Proofs.Component.Identifier
import ScreenLayout.Proofs.Value.Aliases

/-!
# Proofs/Component/Dispatch — what a section is dispatched to

The id of a section decides, except for headers, which the props may turn into their variant for
mobile screens:

    id not registered      ──▸  unrecognized, under its normal form
    id of another kind     ──▸  that kind
    id of a header         ──▸  mobile_header, if its label or its variant mentions a mobile screen
                                header, otherwise

The mobile variant is looked up again under its own id; that it is registered is `ofId?_id`.

* `Section.Dispatched` — the four cases; `Section.resolution_eq_iff` — they are what the dispatch does.
* `Section.resolution_eq_unrecognized_iff` — the mobile variant of a header never misses the registry.
* `Section.dispatch_by_id` — what of the id and of the props does not matter.
-/

namespace ScreenLayout

namespace Section

variable {r : Resolver} {s s' : Section} {props : Json} {kind : ComponentKind}

/-! ## The id -/

/-- **The id of a section as it is written**, and the empty text if it resolves to none. -/
def idText (r : Resolver) (s : Section) : String := (r.text? (some s.component)).getD ""

theorem namedId_eq (r : Resolver) (s : Section) :
    s.namedId r = String.ofList (normalizedId (s.idText r).toList) := rfl

theorem namedId_eq_of_component (h : s.component = s'.component) : s.namedId r = s'.namedId r := by
  rw [namedId, namedId, h]

/-- Ids spelled alike are looked up under one text. -/
theorem namedId_eq_of_alike (h : AlikeId (s.idText r).toList (s'.idText r).toList) :
    s.namedId r = s'.namedId r := by
  rw [namedId_eq, namedId_eq, h.normalizedId_eq]

/-! ## The label and the variant -/

/-- **Some props mention a mobile screen**, in their first label or their first variant. -/
def MentionsMobile (r : Resolver) (props : Json) : Prop :=
  ∃ text, (r.IsFirst r.text? props labelKeys text ∨ r.IsFirst r.text? props variantKeys text)
    ∧ "mobile".toList <:+: Text.lower text.toList

theorem asksForMobile_iff : asksForMobile r props ↔ MentionsMobile r props := by
  have hmentions : ∀ text, mentionsMobile text ↔ "mobile".toList <:+: Text.lower text.toList :=
    fun _ => Text.contains_iff_infix
  simp only [asksForMobile, Bool.or_eq_true, Option.any_eq_true, Resolver.firstText?_eq_some_iff,
    hmentions, MentionsMobile, or_and_right, exists_or]

/-- The labels and variants after the first of each are not looked at. -/
theorem asksForMobile_eq_of_agreeUpTo {p q : Json}
    (hlabel : r.AgreeUpTo r.text? labelKeys p q)
    (hvariant : r.AgreeUpTo r.text? variantKeys p q) : asksForMobile r p = asksForMobile r q := by
  rw [asksForMobile, asksForMobile, Resolver.firstText?, Resolver.firstText?, Resolver.firstText?,
    Resolver.firstText?, hlabel.findSome?_eq, hvariant.findSome?_eq]

/-! ## The cases -/

theorem resolution_of_ofId?_eq_some (h : ComponentKind.ofId? (s.componentId r) = some kind) :
    s.resolution r = .resolved kind := by
  unfold resolution
  rw [h]

theorem resolution_of_ofId?_eq_none (h : ComponentKind.ofId? (s.componentId r) = none) :
    s.resolution r = .unrecognized (s.componentId r) := by
  unfold resolution
  rw [h]

theorem resolution_of_unregistered (h : ComponentKind.ofId? (s.namedId r) = none) :
    s.resolution r = .unrecognized (s.namedId r) := by
  have hid : s.componentId r = s.namedId r := by rw [componentId, h, Option.bind_none]
  exact hid ▸ resolution_of_ofId?_eq_none (hid ▸ h)

theorem resolution_of_plain (h : ComponentKind.ofId? (s.namedId r) = some kind)
    (hkind : kind ≠ .header) : s.resolution r = .resolved kind := by
  have hplain : kind.mobileVariant? = none := by
    cases kind with
    | header => exact absurd rfl hkind
    | _ => rfl
  have hid : s.componentId r = s.namedId r := by rw [componentId, h, Option.bind_some, hplain]
  exact resolution_of_ofId?_eq_some (hid ▸ h)

/-- The mobile variant of a header is registered under its own id. -/
theorem resolution_of_header (h : ComponentKind.ofId? (s.namedId r) = some .header) :
    s.resolution r = .resolved (if asksForMobile r s.props then .mobileHeader else .header) := by
  have hid : s.componentId r
      = if asksForMobile r s.props then ComponentKind.mobileHeader.id else s.namedId r := by
    rw [componentId, h]
    rfl
  refine resolution_of_ofId?_eq_some ?_
  rw [hid]
  split
  · exact ComponentKind.ofId?_id .mobileHeader
  · exact h

/-- **What a section is dispatched to**, by the kind its id is registered to. -/
inductive Dispatched (r : Resolver) (s : Section) : Resolution → Prop
  | unregistered (h : ComponentKind.ofId? (s.namedId r) = none) :
    Dispatched r s (.unrecognized (s.namedId r))
  | plain {kind : ComponentKind} (h : ComponentKind.ofId? (s.namedId r) = some kind)
    (hkind : kind ≠ .header) : Dispatched r s (.resolved kind)
  | mobile (h : ComponentKind.ofId? (s.namedId r) = some .header)
    (hmobile : MentionsMobile r s.props) : Dispatched r s (.resolved .mobileHeader)
  | header (h : ComponentKind.ofId? (s.namedId r) = some .header)
    (hmobile : ¬ MentionsMobile r s.props) : Dispatched r s (.resolved .header)

theorem Dispatched.resolution_eq {res : Resolution} (h : Dispatched r s res) :
    s.resolution r = res := by
  cases h with
  | unregistered h => exact resolution_of_unregistered h
  | plain h hkind => exact resolution_of_plain h hkind
  | mobile h hmobile => rw [resolution_of_header h, if_pos (asksForMobile_iff.2 hmobile)]
  | header h hmobile => rw [resolution_of_header h, if_neg (asksForMobile_iff.not.2 hmobile)]

theorem dispatched_resolution (r : Resolver) (s : Section) : Dispatched r s (s.resolution r) := by
  cases hkind : ComponentKind.ofId? (s.namedId r) with
  | none => exact resolution_of_unregistered hkind ▸ .unregistered hkind
  | some kind =>
    by_cases hheader : kind = .header
    · subst hheader
      rw [resolution_of_header hkind]
      split
      · rename_i hasks
        exact .mobile hkind (asksForMobile_iff.1 hasks)
      · rename_i hasks
        exact .header hkind (asksForMobile_iff.not.1 hasks)
    · exact resolution_of_plain hkind hheader ▸ .plain hkind hheader

/-- **The dispatch does what its cases say.** -/
theorem resolution_eq_iff {res : Resolution} : s.resolution r = res ↔ Dispatched r s res :=
  ⟨fun h => h ▸ dispatched_resolution r s, Dispatched.resolution_eq⟩

/-- A registered id is never lost, not even where it is exchanged. -/
theorem exists_resolution_eq_resolved (h : ComponentKind.ofId? (s.namedId r) = some kind) :
    ∃ k, s.resolution r = .resolved k := by
  by_cases hheader : kind = .header
  · exact ⟨_, resolution_of_header (hheader ▸ h)⟩
  · exact ⟨kind, resolution_of_plain h hheader⟩

theorem resolution_ne_unrecognized (h : ComponentKind.ofId? (s.namedId r) = some kind)
    (id : String) : s.resolution r ≠ .unrecognized id := by
  obtain ⟨k, hk⟩ := exists_resolution_eq_resolved h
  rw [hk]
  exact nofun

/-- **An identifier is unrecognized iff the registry does not have its normal form.** -/
theorem resolution_eq_unrecognized_iff (r : Resolver) (s : Section) (id : String) :
    s.resolution r = .unrecognized id
      ↔ ComponentKind.ofId? (s.namedId r) = none ∧ id = s.namedId r := by
  cases hkind : ComponentKind.ofId? (s.namedId r) with
  | none =>
    rw [resolution_of_unregistered hkind]
    simp only [Resolution.unrecognized.injEq, true_and, eq_comm]
  | some kind =>
    constructor
    · intro hres
      exact absurd hres (resolution_ne_unrecognized hkind id)
    · rintro ⟨⟨⟩, -⟩

/-! ## What does not matter -/

/-- **The props matter for headers only.** -/
theorem resolution_eq_of_not_header (hcomponent : s.component = s'.component)
    (h : ComponentKind.ofId? (s.namedId r) ≠ some .header) : s.resolution r = s'.resolution r := by
  have hid : s.namedId r = s'.namedId r := namedId_eq_of_component hcomponent
  cases hkind : ComponentKind.ofId? (s.namedId r) with
  | none =>
    rw [resolution_of_unregistered hkind, resolution_of_unregistered (hid ▸ hkind), hid]
  | some kind =>
    have hplain : kind ≠ .header := fun heq => h (heq ▸ hkind)
    rw [resolution_of_plain hkind hplain, resolution_of_plain (hid ▸ hkind) hplain]

/-- **One normal form and one answer to the question for a mobile screen** make one resolution. -/
theorem resolution_eq_of_asksForMobile (hid : s.namedId r = s'.namedId r)
    (hasks : asksForMobile r s.props = asksForMobile r s'.props) :
    s.resolution r = s'.resolution r := by
  have hcomponent : s.componentId r = s'.componentId r := by rw [componentId, componentId, hid, hasks]
  unfold resolution
  rw [hcomponent]

/-- **The id decides, except for headers.**  A section is dispatched as the cases say.  The props do
not matter unless the id is that of a header, and then only up to the first label and the first
variant; a registered id is never lost; spellings of one id come to the same. -/
theorem dispatch_by_id (r : Resolver) :
    (∀ (s : Section) res, s.resolution r = res ↔ Dispatched r s res)
      ∧ (∀ component props props' visibility visibility',
          ComponentKind.ofId? (namedId r ⟨component, props, visibility⟩) ≠ some .header →
          resolution r ⟨component, props, visibility⟩ = resolution r ⟨component, props', visibility'⟩)
      ∧ (∀ component props props' visibility visibility',
          r.AgreeUpTo r.text? labelKeys props props' →
          r.AgreeUpTo r.text? variantKeys props props' →
          resolution r ⟨component, props, visibility⟩ = resolution r ⟨component, props', visibility'⟩)
      ∧ (∀ (s : Section) kind id, ComponentKind.ofId? (namedId r s) = some kind →
          s.resolution r ≠ .unrecognized id)
      ∧ ∀ s s' : Section, AlikeId (s.idText r).toList (s'.idText r).toList → s.props = s'.props →
          s.resolution r = s'.resolution r :=
  ⟨fun _ _ => resolution_eq_iff, fun _ _ _ _ _ h => resolution_eq_of_not_header rfl h,
    fun _ _ _ _ _ hlabel hvariant =>
      resolution_eq_of_asksForMobile rfl (asksForMobile_eq_of_agreeUpTo hlabel hvariant),
    fun _ _ id h => resolution_ne_unrecognized h id,
    fun _ _ halike hprops =>
      resolution_eq_of_asksForMobile (namedId_eq_of_alike halike) (congrArg _ hprops)⟩

/-- A header by its third id, in a wrapper, with blanks around it.  Its title is empty, so the label
counts; the name does not. -/
def shopHeader : Section :=
  ⟨.wrap "value" (.string " App-Header "), .object [("title", .string ""),
    ("label", .string "Shop (Mobile)"), ("name", .string "Shop")], none⟩

/-- **A shop for mobile screens**, in two spellings and with two names; a banner stays a banner, on
whatever screen. -/
theorem dispatch_by_id_shop :
    AlikeId (shopHeader.idText {}).toList "APP_HEADER".toList
      ∧ shopHeader.resolution {} = .resolved .mobileHeader
      ∧ resolution {} ⟨.string "APP_HEADER", shopHeader.props, none⟩ = .resolved .mobileHeader
      ∧ resolution {} ⟨shopHeader.component, .object [("label", .string "Shop (Mobile)")], none⟩
        = .resolved .mobileHeader
      ∧ (∀ id, shopHeader.resolution {} ≠ .unrecognized id)
      ∧ ComponentKind.ofId? (namedId {} ⟨.string "HERO", .null, none⟩) = some .banner
      ∧ resolution {} ⟨.string "HERO", .null, none⟩
        = resolution {} ⟨.string "HERO", shopHeader.props, none⟩ := by
  obtain ⟨hcases, hplain, hprops, hkept, hspelled⟩ := dispatch_by_id {}
  have hid : ComponentKind.ofId? (shopHeader.namedId {}) = some .header := by decide +kernel
  have hlabel : Resolver.IsFirst {} (Resolver.text? {}) shopHeader.props labelKeys "Shop (Mobile)" :=
    ⟨["title"], "label", _, rfl, by decide, by decide⟩
  have hmobile : shopHeader.resolution {} = .resolved .mobileHeader :=
    (hcases _ _).2 (.mobile hid ⟨_, .inl hlabel, Text.contains_iff_infix.1 (by decide +kernel)⟩)
  have halike : AlikeId (shopHeader.idText {}).toList "APP_HEADER".toList := by
    unfold AlikeId
    decide +kernel
  have hbanner : ComponentKind.ofId? (namedId {} ⟨.string "HERO", .null, none⟩) = some .banner := by
    decide +kernel
  refine ⟨halike, hmobile, ?_, ?_, fun id => hkept _ _ id hid, hbanner, ?_⟩
  · exact (hspelled shopHeader ⟨.string "APP_HEADER", shopHeader.props, none⟩ halike rfl).symm.trans
      hmobile
  · refine (hprops _ shopHeader.props _ none _ ?_ ?_).symm.trans hmobile
    · exact ⟨by decide, fun _ => ⟨by decide, nofun⟩⟩
    · exact ⟨by decide, fun _ => ⟨by decide, fun _ => trivial⟩⟩
  · exact hplain _ _ _ _ _ (hbanner ▸ by decide)

end Section

end ScreenLayout
