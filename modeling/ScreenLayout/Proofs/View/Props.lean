import ScreenLayout.Proofs.Component.Dispatch
import ScreenLayout.Proofs.Value.Resolved
import ScreenLayout.View.Render

/-!
# Proofs/View/Props — what a component sees of its props

A component reads its props by a few lists of keys, and each of them only through what the fields
resolve to: the first text, number, flag or array, and the dictionary of a style.  So the view is a
function of these resolved fields, and props may be written in any way that keeps them.

* `ComponentKind.keyLists` — the keys a component reads, list by list.
* `View.render_eq_of_agreeOn` — props that agree on them give one view.
* `Section.resolution_eq_of_agreeOn` — the label and the variant are read so too.
* `View.render_reads_resolved` — both, with the ways to write the props anew.
-/

namespace ScreenLayout

/-! ## Readers -/

namespace Resolver

variable {r : Resolver} {keys : List String} {p q : Json}

/-- **A reader of the first field** that gives something depends on the resolved fields alone. -/
theorem findSome?_resolved_eq {α : Type} (h : r.AgreeOn keys p q) (read : Option Json → Option α) :
    (keys.findSome? fun key => read (r.resolved? p key))
      = keys.findSome? fun key => read (r.resolved? q key) :=
  findSome?_congr fun key hkey => congrArg read (h key hkey)

theorem firstText?_eq (h : r.AgreeOn keys p q) : r.firstText? p keys = r.firstText? q keys :=
  findSome?_resolved_eq h (·.bind Json.toText?)

theorem firstNumber?_eq (h : r.AgreeOn keys p q) : r.firstNumber? p keys = r.firstNumber? q keys :=
  findSome?_resolved_eq h (·.bind Json.toNumber?)

theorem firstFlag_eq (h : r.AgreeOn keys p q) (fallback : Bool) :
    r.firstFlag p keys fallback = r.firstFlag q keys fallback :=
  congrArg (·.getD fallback) (findSome?_resolved_eq h (·.bind Json.toBool?))

/-- The items of an array that a field resolves to. -/
def itemsOf? : Option Json → Option (List Json)
  | some (.array items) => some items
  | _ => none

theorem firstItems_eq (h : r.AgreeOn keys p q) : r.firstItems p keys = r.firstItems q keys :=
  congrArg (·.getD []) (findSome?_resolved_eq h itemsOf?)

end Resolver

/-- The style of a dictionary that a field resolves to; without one it is empty. -/
def dictionaryStyle (c : Config) : Option Json → Style
  | some (.object entries) => (compile c entries).style
  | _ => Style.empty

/-- **The style among some props** is that of the dictionary its field resolves to. -/
theorem style_compileField (c : Config) (p : Json) (key : String) :
    (compileField c p key).style = dictionaryStyle c (c.resolver.resolved? p key) := by
  rw [compileField, Resolver.resolved?]
  cases hfield : c.resolver.field? p key with
  | none => rfl
  | some v =>
    rw [Option.bind_some]
    dsimp only
    rw [compileValue]
    cases hv : c.resolver.unwrap v with
    | none => rfl
    | some u => cases u <;> rfl

theorem View.styleOf_eq {c : Config} {key : String} {p q : Json}
    (h : c.resolver.AgreeOn [key] p q) : styleOf c p key = styleOf c q key := by
  rw [styleOf, styleOf, style_compileField, style_compileField, h key List.mem_cons_self]

/-! ## The keys of a component -/

namespace ComponentKind

/-- **The keys by which a component reads its props**, list by list: the first of a list that gives
something counts. -/
@[simp] def keyLists : ComponentKind → List (List String)
  | header | mobileHeader =>
    [["style"], Section.labelKeys, ["subtitle", "tagline"], ["logo", "logoUrl", "logoSrc"],
      ["showSearch", "search"], ["showCart", "cart"]]
  | banner =>
    [["style"], ["image", "imageUrl", "src", "backgroundImage"], ["heading", "title"],
      ["subheading", "subtitle", "description"], ["link", "url", "href"]]
  | carousel =>
    [["style"], ["items", "slides", "images"], ["autoplay", "autoPlay"],
      ["interval", "intervalMs", "autoplayInterval"], ["showIndicators", "showDots", "dots"]]
  | button =>
    [["style"], ["textStyle"], ["disabled", "isDisabled"], ["label", "text", "title"],
      ["action", "url", "link", "href"]]
  | text =>
    [["style"], ["text", "content", "body"], ["numberOfLines", "maxLines", "lines"]]
  | image =>
    [["style"], ["src", "source", "image", "imageUrl", "uri", "url"],
      ["alt", "alternativeText", "caption"], ["aspectRatio", "ratio"]]
  | spacer => [["style"], ["height", "size"]]
  | divider => [["style"], ["thickness", "height"], ["color"]]
  | footer => [["style"], ["text", "copyright", "content"], ["links", "items"]]

/-- **The keys of the props a component reads.** -/
def propKeys (kind : ComponentKind) : List String := kind.keyLists.flatten

end ComponentKind

/-! ## Views -/

namespace View

variable {c : Config} {p q : Json}

theorem header_eq (compact : Bool)
    (h : ∀ keys ∈ ComponentKind.header.keyLists, c.resolver.AgreeOn keys p q) :
    header c compact p = header c compact q := by
  simp only [ComponentKind.keyLists, List.forall_mem_cons] at h
  obtain ⟨hstyle, htitle, hsubtitle, hlogo, hsearch, hcart, -⟩ := h
  simp only [header, styleOf_eq hstyle, Resolver.firstText?_eq htitle,
    Resolver.firstText?_eq hsubtitle, Resolver.firstText?_eq hlogo, Resolver.firstFlag_eq hsearch,
    Resolver.firstFlag_eq hcart]

theorem banner_eq (h : ∀ keys ∈ ComponentKind.banner.keyLists, c.resolver.AgreeOn keys p q) :
    banner c p = banner c q := by
  simp only [ComponentKind.keyLists, List.forall_mem_cons] at h
  obtain ⟨hstyle, himage, hheading, hsubheading, hlink, -⟩ := h
  simp only [banner, styleOf_eq hstyle, Resolver.firstText?_eq himage,
    Resolver.firstText?_eq hheading, Resolver.firstText?_eq hsubheading,
    Resolver.firstText?_eq hlink]

theorem carousel_eq (h : ∀ keys ∈ ComponentKind.carousel.keyLists, c.resolver.AgreeOn keys p q) :
    carousel c p = carousel c q := by
  simp only [ComponentKind.keyLists, List.forall_mem_cons] at h
  obtain ⟨hstyle, hitems, hautoplay, hinterval, hindicators, -⟩ := h
  simp only [carousel, styleOf_eq hstyle, Resolver.firstItems_eq hitems,
    Resolver.firstFlag_eq hautoplay, Resolver.firstNumber?_eq hinterval,
    Resolver.firstFlag_eq hindicators]

theorem button_eq (h : ∀ keys ∈ ComponentKind.button.keyLists, c.resolver.AgreeOn keys p q) :
    button c p = button c q := by
  simp only [ComponentKind.keyLists, List.forall_mem_cons] at h
  obtain ⟨hstyle, htextStyle, hdisabled, hlabel, haction, -⟩ := h
  simp only [button, styleOf_eq hstyle, styleOf_eq htextStyle, Resolver.firstFlag_eq hdisabled,
    Resolver.firstText?_eq hlabel, Resolver.firstText?_eq haction]

theorem text_eq (h : ∀ keys ∈ ComponentKind.text.keyLists, c.resolver.AgreeOn keys p q) :
    text c p = text c q := by
  simp only [ComponentKind.keyLists, List.forall_mem_cons] at h
  obtain ⟨hstyle, htext, hlines, -⟩ := h
  simp only [text, styleOf_eq hstyle, Resolver.firstText?_eq htext, Resolver.firstNumber?_eq hlines]

theorem image_eq (h : ∀ keys ∈ ComponentKind.image.keyLists, c.resolver.AgreeOn keys p q) :
    image c p = image c q := by
  simp only [ComponentKind.keyLists, List.forall_mem_cons] at h
  obtain ⟨hstyle, hsource, halt, hratio, -⟩ := h
  simp only [image, aspectRatio?, styleOf_eq hstyle, Resolver.firstText?_eq hsource,
    Resolver.firstText?_eq halt, Resolver.firstNumber?_eq hratio]

theorem spacer_eq (h : ∀ keys ∈ ComponentKind.spacer.keyLists, c.resolver.AgreeOn keys p q) :
    spacer c p = spacer c q := by
  simp only [ComponentKind.keyLists, List.forall_mem_cons] at h
  obtain ⟨hstyle, hheight, -⟩ := h
  simp only [spacer, styleOf_eq hstyle, Resolver.firstNumber?_eq hheight]

theorem divider_eq (h : ∀ keys ∈ ComponentKind.divider.keyLists, c.resolver.AgreeOn keys p q) :
    divider c p = divider c q := by
  simp only [ComponentKind.keyLists, List.forall_mem_cons] at h
  obtain ⟨hstyle, hthickness, hcolor, -⟩ := h
  simp only [divider, styleOf_eq hstyle, Resolver.firstNumber?_eq hthickness,
    Resolver.firstText?_eq hcolor]

theorem footer_eq (h : ∀ keys ∈ ComponentKind.footer.keyLists, c.resolver.AgreeOn keys p q) :
    footer c p = footer c q := by
  simp only [ComponentKind.keyLists, List.forall_mem_cons] at h
  obtain ⟨hstyle, htext, hlinks, -⟩ := h
  simp only [footer, styleOf_eq hstyle, Resolver.firstText?_eq htext,
    Resolver.firstItems_eq hlinks]

/-- **Props that agree on the keys of a component give one view.** -/
theorem render_eq_of_agreeOn (kind : ComponentKind)
    (h : c.resolver.AgreeOn kind.propKeys p q) : render c kind p = render c kind q := by
  have hlists : ∀ keys ∈ kind.keyLists, c.resolver.AgreeOn keys p q :=
    fun keys hkeys key hkey => h key (List.mem_flatten.2 ⟨keys, hkeys, hkey⟩)
  cases kind with
  | header => exact header_eq false hlists
  | mobileHeader => exact header_eq true hlists
  | banner => exact banner_eq hlists
  | carousel => exact carousel_eq hlists
  | button => exact button_eq hlists
  | text => exact text_eq hlists
  | image => exact image_eq hlists
  | spacer => exact spacer_eq hlists
  | divider => exact divider_eq hlists
  | footer => exact footer_eq hlists

end View

/-! ## Dispatch -/

namespace Section

/-- **The keys of the props that dispatch reads**: those of the label and of the variant. -/
def dispatchKeys : List String := labelKeys ++ variantKeys

variable {r : Resolver} {p q : Json}

theorem asksForMobile_eq (h : r.AgreeOn dispatchKeys p q) :
    asksForMobile r p = asksForMobile r q := by
  have hlabel : r.AgreeOn labelKeys p q := fun key hkey => h key (List.mem_append_left _ hkey)
  have hvariant : r.AgreeOn variantKeys p q := fun key hkey => h key (List.mem_append_right _ hkey)
  rw [asksForMobile, asksForMobile, Resolver.firstText?_eq hlabel, Resolver.firstText?_eq hvariant]

/-- **Sections of one component whose props agree** are dispatched alike. -/
theorem resolution_eq_of_agreeOn {s t : Section} (hcomponent : s.component = t.component)
    (h : r.AgreeOn dispatchKeys s.props t.props) : s.resolution r = t.resolution r :=
  resolution_eq_of_asksForMobile (namedId_eq_of_component hcomponent) (asksForMobile_eq h)

end Section

namespace View

/-- **A component sees its props only through resolved fields**: props that agree on its keys give one
view, and one kind of component where they agree on the keys of dispatch, whatever the section says of
its visibility.  So do props written anew for these keys. -/
theorem render_reads_resolved (c : Config) (r : Resolver) :
    (∀ kind p q, c.resolver.AgreeOn (ComponentKind.propKeys kind) p q →
        render c kind p = render c kind q)
      ∧ (∀ s t : Section, s.component = t.component →
        r.AgreeOn Section.dispatchKeys s.props t.props → s.resolution r = t.resolution r)
      ∧ (∀ kind p q, Relation.EqvGen (Respelling c.resolver (ComponentKind.propKeys kind)) p q →
        render c kind p = render c kind q)
      ∧ (∀ s t : Section, s.component = t.component →
        Relation.EqvGen (Respelling r Section.dispatchKeys) s.props t.props →
          s.resolution r = t.resolution r) :=
  ⟨fun kind _ _ h => render_eq_of_agreeOn kind h,
    fun _ _ hcomponent h => Section.resolution_eq_of_agreeOn hcomponent h,
    fun kind _ _ h => render_eq_of_agreeOn kind (agreeOn_of_respelled h),
    fun _ _ hcomponent h => Section.resolution_eq_of_agreeOn hcomponent (agreeOn_of_respelled h)⟩

/-- A carousel of one slide that plays by itself. -/
def plainSlides : Json :=
  .object [("slides", .array [.string "a.png"]), ("autoplay", .string "yes")]

/-- The same in wrappers, among a key of no meaning and an empty one. -/
def wrappedSlides : Json :=
  .wrap "properties" (.object [("zoom", .bool true), ("items", .null),
    ("autoplay", .wrap "value" (.string "yes")),
    ("slides", .wrap "const" (.array [.string "a.png"]))])

/-- A header with a title for mobile screens. -/
def titled : Json := .object [("title", .string "Shop (mobile)")]

/-- **A carousel and a header** are what they are in wrappers too: the carousel plays its one slide
every three seconds, and both headers show the title. -/
theorem render_reads_resolved_slides :
    (Config.resolver {}).AgreeOn (ComponentKind.propKeys .carousel) plainSlides wrappedSlides
      ∧ render {} .carousel plainSlides = render {} .carousel wrappedSlides
      ∧ (render {} .carousel wrappedSlides).content = .carousel true 3000 true
      ∧ (render {} .carousel wrappedSlides).children.map View.content = [.image "a.png" none none]
      ∧ Resolver.AgreeOn ⟨1⟩ Section.dispatchKeys titled (.wrap "const" titled)
      ∧ Section.resolution ⟨1⟩ ⟨.string "header", titled, none⟩
        = Section.resolution ⟨1⟩ ⟨.string "header", .wrap "const" titled, some (.bool false)⟩
      ∧ Section.resolution ⟨1⟩ ⟨.string "header", titled, none⟩ = .resolved .mobileHeader
      ∧ Relation.EqvGen (Respelling (Config.resolver {}) (ComponentKind.propKeys .header)) titled
        (.object [("title", .wrap "value" (.string "Shop (mobile)")), ("logo", .null)])
      ∧ render {} .header titled
        = render {} .header (.object [("title", .wrap "value" (.string "Shop (mobile)")),
          ("logo", .null)])
      ∧ (render {} .header titled).content
        = .header "Shop (mobile)" none none true true false
      ∧ Relation.EqvGen (Respelling ⟨1⟩ Section.dispatchKeys) titled (.wrap "const" titled)
      ∧ Section.resolution ⟨1⟩ ⟨.string "navbar", titled, none⟩
        = Section.resolution ⟨1⟩ ⟨.string "navbar", .wrap "const" titled, none⟩
      ∧ Section.resolution ⟨1⟩ ⟨.string "navbar", titled, none⟩ = .resolved .mobileHeader := by
  obtain ⟨hview, hkind, hrespelled, hdispatched⟩ := render_reads_resolved {} ⟨1⟩
  have hslides : (Config.resolver {}).AgreeOn (ComponentKind.propKeys .carousel) plainSlides
      wrappedSlides := by decide +kernel
  have htitled : Resolver.AgreeOn ⟨1⟩ Section.dispatchKeys titled (.wrap "const" titled) := by
    decide +kernel
  have hroom : (Config.resolver {}).HasRoom "value" (.string "Shop (mobile)") :=
    Resolver.hasRoom_of_wrapped?_eq_none (by decide) rfl nofun (by decide)
  have hheader : Relation.EqvGen (Respelling (Config.resolver {}) (ComponentKind.propKeys .header))
      titled (.object [("title", .wrap "value" (.string "Shop (mobile)")), ("logo", .null)]) :=
    .trans _ _ _ (.rel _ _ (.field [] [] (by decide) (by decide) hroom))
      (.rel _ _ (.null [("title", .wrap "value" (.string "Shop (mobile)"))] [] (by decide) rfl))
  have hconst : Relation.EqvGen (Respelling ⟨1⟩ Section.dispatchKeys) titled (.wrap "const" titled) :=
    .rel _ _ (.props (by decide) (Resolver.hasRoom_of_wrapped?_eq_none (by decide) rfl nofun
      (by decide)))
  have hcarousel := hview .carousel _ _ hslides
  have hcontent : (render {} .carousel plainSlides).content = .carousel true 3000 true := by
    decide +kernel
  have hchildren : (render {} .carousel plainSlides).children.map View.content
      = [.image "a.png" none none] := by decide +kernel
  exact ⟨hslides, hcarousel, hcarousel ▸ hcontent, hcarousel ▸ hchildren, htitled,
    hkind _ _ rfl htitled, by decide +kernel, hheader, hrespelled _ _ _ hheader, by decide +kernel,
    hconst, hdispatched _ _ rfl hconst, by decide +kernel⟩

end View

end ScreenLayout
