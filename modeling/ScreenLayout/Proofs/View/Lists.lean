import ScreenLayout.Proofs.Text.Blank
import ScreenLayout.Proofs.Value.Aliases

/-!
# Proofs/View/Lists — slides and links

Two components show lists.  Each entry of the array among the props gives one slide or one link, or it
gives nothing and is passed over; nothing else gets into the list, and the order is kept.

    [{image: "a.png"}, "b.png", 42, {value: "c.png"}, "  "]  ──▸  [banner, image b.png, image c.png]

A slide is made of the entry as it stands, wrappers included, since a banner looks through them itself.

* `Picks` — a list picked out of another; `picks_iff` — that is filtering by a function.
* `View.IsSlide`, `View.IsLink` — what an entry gives.
* `View.lists_kept` — the lists of carousels and footers, and that no other view holds views.
-/

namespace ScreenLayout

/-! ## Picking -/

/-- **What is picked out of a list**, in order: one thing from each entry that gives any. -/
inductive Picks {α β : Type} (Gives : α → β → Prop) : List α → List β → Prop
  | nil : Picks Gives [] []
  | keep {a : α} {b : β} {as : List α} {bs : List β} (h : Gives a b) (hrest : Picks Gives as bs) :
    Picks Gives (a :: as) (b :: bs)
  | pass {a : α} {as : List α} {bs : List β} (h : ∀ b, ¬ Gives a b) (hrest : Picks Gives as bs) :
    Picks Gives (a :: as) bs

variable {α β : Type} {Gives : α → β → Prop} {f : α → Option β} {as : List α} {bs : List β}

theorem picks_filterMap (hf : ∀ a b, f a = some b ↔ Gives a b) (as : List α) :
    Picks Gives as (as.filterMap f) := by
  induction as with
  | nil => exact .nil
  | cons a as ih =>
    cases ha : f a with
    | some b =>
      rw [List.filterMap_cons_some ha]
      exact .keep ((hf a b).1 ha) ih
    | none =>
      rw [List.filterMap_cons_none ha]
      exact .pass (fun b hb => Option.some_ne_none b (((hf a b).2 hb).symm.trans ha)) ih

/-- **Picking is filtering** by the function that gives what an entry gives. -/
theorem picks_iff (hf : ∀ a b, f a = some b ↔ Gives a b) :
    Picks Gives as bs ↔ bs = as.filterMap f := by
  constructor
  · intro h
    induction h with
    | nil => rfl
    | keep h _ ih => rw [List.filterMap_cons_some ((hf _ _).2 h), ih]
    | @pass a as bs h _ ih =>
      have hnone : f a = none := Option.eq_none_iff_forall_ne_some.2 fun b hb => h b ((hf a b).1 hb)
      rw [List.filterMap_cons_none hnone, ih]
  · rintro rfl
    exact picks_filterMap hf as

/-- What is picked comes from an entry. -/
theorem Picks.exists_of_mem (h : Picks Gives as bs) {b : β} (hb : b ∈ bs) : ∃ a ∈ as, Gives a b := by
  induction h with
  | nil => cases hb
  | @keep a b' as bs hgives _ ih =>
    obtain rfl | hrest := List.mem_cons.1 hb
    · exact ⟨a, List.mem_cons_self, hgives⟩
    · obtain ⟨a', ha', hgives'⟩ := ih hrest
      exact ⟨a', List.mem_cons_of_mem _ ha', hgives'⟩
  | pass _ _ ih =>
    obtain ⟨a', ha', hgives'⟩ := ih hb
    exact ⟨a', List.mem_cons_of_mem _ ha', hgives'⟩

namespace View

variable {c : Config} {entry : Json} {view : View} {link : Link}

/-! ## Slides -/

/-- **The slide an entry gives**: a banner of an object, and an image of a text that is not blank, which
is then its source and all there is to it. -/
inductive IsSlide (c : Config) (entry : Json) : View → Prop
  | banner {fields : List (String × Json)} (h : c.resolver.unwrap entry = some (.object fields)) :
    IsSlide c entry (render c .banner entry)
  | image {url : String} (h : c.resolver.unwrap entry = some (.string url))
    (hink : ∃ char ∈ url.toList, Text.isBlank char = false) :
    IsSlide c entry
      ⟨.image, Style.empty, .image (String.ofList (Text.trim url.toList)) none none, []⟩

theorem slide?_of_object {fields : List (String × Json)}
    (h : c.resolver.unwrap entry = some (.object fields)) :
    slide? c entry = some (render c .banner entry) := by
  rw [slide?, h]
  rfl

theorem slide?_of_string {url : String} (h : c.resolver.unwrap entry = some (.string url)) :
    slide? c entry = if (Text.trim url.toList).isEmpty then none
      else some (bareImage (Text.trim url.toList)) := by
  rw [slide?, h]

theorem slide?_eq_some_iff : slide? c entry = some view ↔ IsSlide c entry view := by
  constructor
  · intro hslide
    cases hentry : c.resolver.unwrap entry with
    | none =>
      rw [slide?, hentry] at hslide
      cases hslide
    | some v =>
      cases v with
      | object fields =>
        rw [slide?_of_object hentry] at hslide
        exact Option.some.inj hslide ▸ .banner hentry
      | string url =>
        rw [slide?_of_string hentry, Option.ite_none_left_eq_some, List.isEmpty_iff,
          Text.trim_eq_nil_iff] at hslide
        obtain ⟨hink, himage⟩ := hslide
        obtain ⟨char, hchar⟩ := not_forall.1 hink
        obtain ⟨hmem, hblank⟩ := Classical.not_imp.1 hchar
        exact Option.some.inj himage ▸ .image hentry ⟨char, hmem, Bool.eq_false_iff.2 hblank⟩
      | _ =>
        rw [slide?, hentry] at hslide
        cases hslide
  · intro hslide
    cases hslide with
    | banner h => exact slide?_of_object h
    | @image url h hink =>
      obtain ⟨char, hmem, hblank⟩ := hink
      have hne : Text.trim url.toList ≠ [] := fun hnil =>
        Bool.eq_false_iff.1 hblank (Text.trim_eq_nil_iff.1 hnil char hmem)
      rw [slide?_of_string h, if_neg (List.isEmpty_iff.not.2 hne)]
      rfl

/-- A slide holds no views. -/
theorem IsSlide.children_eq_nil (h : IsSlide c entry view) : view.children = [] := by
  cases h with
  | banner => rfl
  | image => rfl

/-! ## Links -/

/-- **The link an entry gives**: its first label and its first address. -/
structure IsLink (c : Config) (entry : Json) (link : Link) : Prop where
  label : c.resolver.IsFirst c.resolver.text? entry ["label", "title", "text"] link.label
  url : c.resolver.IsFirst c.resolver.text? entry ["url", "href", "link"] link.url

theorem link?_eq_some_iff : link? c entry = some link ↔ IsLink c entry link := by
  have hlink : IsLink c entry link
      ↔ c.resolver.firstText? entry ["label", "title", "text"] = some link.label
        ∧ c.resolver.firstText? entry ["url", "href", "link"] = some link.url := by
    rw [Resolver.firstText?_eq_some_iff, Resolver.firstText?_eq_some_iff]
    exact ⟨fun h => ⟨h.label, h.url⟩, fun ⟨hlabel, hurl⟩ => ⟨hlabel, hurl⟩⟩
  rw [hlink, link?]
  obtain ⟨label, url⟩ := link
  cases c.resolver.firstText? entry ["label", "title", "text"] with
  | none => simp only [reduceCtorEq, false_and]
  | some label' =>
    cases c.resolver.firstText? entry ["url", "href", "link"] with
    | none => simp only [reduceCtorEq, and_false]
    | some url' => simp only [Option.some.injEq, Link.mk.injEq]

/-! ## All lists -/

/-- **Lists inside views lose nothing and invent nothing.**  A view has the kind it was rendered for, and
holds views only if that is a carousel.  Those are the slides that the entries of the first array among
its items give, and hold none themselves; the links of a footer are those that the entries of its first
array give. -/
theorem lists_kept (c : Config) :
    (∀ kind props, (render c kind props).kind = kind
        ∧ (kind ≠ .carousel → (render c kind props).children = []))
      ∧ (∀ props, ∃ entries,
          c.resolver.ItemsAmong props ["items", "slides", "images"] entries
          ∧ Picks (IsSlide c) entries (render c .carousel props).children
          ∧ ∀ child ∈ (render c .carousel props).children, child.children = [])
      ∧ ∀ props, ∃ closing links entries,
          (render c .footer props).content = .footer closing links
          ∧ c.resolver.ItemsAmong props ["links", "items"] entries
          ∧ Picks (IsLink c) entries links := by
  refine ⟨fun kind props => ⟨kind_render c kind props, fun hkind => ?_⟩, fun props => ?_,
    fun props => ?_⟩
  · cases kind with
    | carousel => exact absurd rfl hkind
    | _ => rfl
  · have hpicks : Picks (IsSlide c) (c.resolver.firstItems props ["items", "slides", "images"])
        (render c .carousel props).children := (picks_iff fun _ _ => slide?_eq_some_iff).2 rfl
    refine ⟨_, Resolver.itemsAmong_firstItems _ _ _, hpicks, fun child hchild => ?_⟩
    obtain ⟨_, _, hslide⟩ := hpicks.exists_of_mem hchild
    exact hslide.children_eq_nil
  · exact ⟨_, _, _, rfl, Resolver.itemsAmong_firstItems _ _ _,
      (picks_iff fun _ _ => link?_eq_some_iff).2 rfl⟩

/-- Entries of every sort: the third and the last two are no slides. -/
def mixedEntries : List Json :=
  [.object [("image", .string "a.png")], .string " b.png", .bool true, .wrap "value" (.string "c.png"),
    .null, .string "  "]

/-- **Three slides out of six entries**, and none in a header. -/
theorem lists_kept_mixed :
    (render {} .header (.object [("slides", .array mixedEntries)])).children = []
      ∧ (render {} .carousel (.object [("slides", .array mixedEntries)])).children
        = [render {} .banner (.object [("image", .string "a.png")]),
          ⟨.image, Style.empty, .image "b.png" none none, []⟩,
          ⟨.image, Style.empty, .image "c.png" none none, []⟩]
      ∧ ∃ entries, Resolver.ItemsAmong {} (.object [("slides", .array mixedEntries)])
          ["items", "slides", "images"] entries
        ∧ Picks (IsSlide {}) entries
          (render {} .carousel (.object [("slides", .array mixedEntries)])).children := by
  obtain ⟨hkinds, hcarousel, -⟩ := lists_kept {}
  obtain ⟨entries, hentries, hslides, -⟩ := hcarousel (.object [("slides", .array mixedEntries)])
  exact ⟨(hkinds .header _).2 (by decide), by decide +kernel, entries, hentries, hslides⟩

end View

end ScreenLayout
