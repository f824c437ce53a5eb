import ScreenLayout.Proofs.Style.Expansion
import ScreenLayout.Proofs.Style.Patches

/-!
# Proofs/Style/Framing — a shorthand is written whole or not at all

A shorthand comes to its patch, so it is refused for every style or writes the same to every style.
Refused, it leaves the style; accepted, it leaves the gradient and every property outside its family.

* `Expander.family` — the names a shorthand may write to.
* `Expander.refuses_or_writes` — a shorthand does not look at the style.
* `Expander.atomic_framed` — what a shorthand leaves as it was.
-/

namespace ScreenLayout

namespace Expander

open StyleWriter

/-! ## Families -/

/-- **The names a shorthand may write to.** -/
def family : Expander → List String
  | box name => name :: Shorthand.boxSides.map (name ++ ·)
  | border _ side =>
    [Shorthand.widthName side, Shorthand.colorName side] ++ if side = "" then ["borderStyle"] else []
  | font => ["fontStyle", "fontVariant", "fontWeight", "fontSize", "lineHeight", "fontFamily"]
  | boxShadow _ => ["shadowOffset", "shadowRadius", "shadowOpacity", "shadowColor", "elevation"]

variable {x : Expander} {v : Json} {p : StylePatch}

/-- **Every write of a shorthand is in its family.** -/
theorem mem_family_of_mem_writes (h : x.patch v = .ok p) : ∀ e ∈ p.writes, e.1 ∈ x.family := by
  rintro ⟨name, w⟩ he
  cases x with
  | box property =>
    have hwrite : Shorthand.BoxWrite property name w := Shorthand.boxWrite_of_mem h _ he
    cases hwrite with
    | all => exact List.mem_cons_self
    | side hside => exact List.mem_cons_of_mem _ (List.mem_map_of_mem hside)
  | border property side =>
    have hwrite : Shorthand.BorderWrite side name w := Shorthand.borderWrite_of_mem h _ he
    cases hwrite with
    | width => exact List.mem_append_left _ List.mem_cons_self
    | color => exact List.mem_append_left _ (List.mem_cons_of_mem _ List.mem_cons_self)
    | line hside =>
      subst hside
      exact List.mem_append_right _ List.mem_cons_self
  | font =>
    have hwrite : Shorthand.FontWrite name w := Shorthand.fontWrite_of_mem h _ he
    cases hwrite <;> simp [family]
  | boxShadow c =>
    have hwrite : Shorthand.ShadowWrite c name w := Shorthand.shadowWrite_of_mem h _ he
    cases hwrite <;> simp [family]

/-- **No shorthand writes a gradient.** -/
theorem gradient_patch (h : x.patch v = .ok p) : p.gradient = none := by
  cases x with
  | box name => exact (Shorthand.isPlain_of_box h).no_gradient
  | border property side =>
    rcases Shorthand.isPlain_or_lineOnly_of_border h with hplain | ⟨_, -, -, rfl⟩
    · exact hplain.no_gradient
    · rfl
  | font => exact (Shorthand.isPlain_of_font h).no_gradient
  | boxShadow c => exact (Shorthand.isPlain_of_boxShadow h).no_gradient

/-- **A shorthand is refused for every style, or writes the same to every style.** -/
theorem refuses_or_writes (x : Expander) (v : Json) :
    (∃ e, ∀ s, (x.expand v).run s = .error e s) ∨
      ∃ writes : List (String × StyleValue), (∀ e ∈ writes, e.1 ∈ x.family) ∧
        ∀ s, (x.expand v).run s = .ok () { s with properties := s.properties.insertMany writes } := by
  rw [expand_eq]
  cases hp : x.patch v with
  | error e => exact .inl ⟨e, fun _ => rfl⟩
  | ok p =>
    refine .inr ⟨p.writes, mem_family_of_mem_writes hp, fun s => ?_⟩
    have hgradient : (s.apply p).gradient = s.gradient := by
      rw [Style.gradient_apply, gradient_patch hp, Option.none_or]
    exact congrArg (fun g => EStateM.Result.ok () (Style.mk (s.properties.insertMany p.writes) g))
      hgradient

variable {s t : Style} {e : StyleError}

/-- **A refused shorthand leaves the style.** -/
theorem eq_of_refused (h : (x.expand v).run s = .error e t) : t = s := by
  obtain ⟨e', hrefused⟩ | ⟨writes, -, hwritten⟩ := refuses_or_writes x v
  · rw [hrefused s] at h
    cases h
    rfl
  · rw [hwritten s] at h
    cases h

/-- **An accepted shorthand leaves the gradient and every property outside its family.** -/
theorem framed_of_accepted (h : (x.expand v).run s = .ok () t) :
    (∀ name ∉ x.family, t.get? name = s.get? name) ∧ t.gradient = s.gradient := by
  obtain ⟨e', hrefused⟩ | ⟨writes, hfamily, hwritten⟩ := refuses_or_writes x v
  · rw [hrefused s] at h
    cases h
  · rw [hwritten s] at h
    cases h
    refine ⟨fun name hname => ?_, rfl⟩
    have hnone : Properties.lastWrite? writes name = none := by
      refine List.lookup_eq_none_iff.2 fun e he => bne_iff_ne.2 ?_
      rintro rfl
      exact hname (hfamily e (List.mem_reverse.1 he))
    have hget := s.properties.get?_insertMany writes name
    rwa [hnone, Option.none_or] at hget

/-- **A shorthand is atomic and keeps to its family.**  A refused one leaves the whole style; one that
is accepted leaves the gradient and every property outside its family; and what it writes, or whether
it is refused, is the same for all styles. -/
theorem atomic_framed (x : Expander) (v : Json) :
    (∀ s e t, (x.expand v).run s = .error e t → t = s)
    ∧ (∀ s t, (x.expand v).run s = .ok () t →
        (∀ name ∉ x.family, t.get? name = s.get? name) ∧ t.gradient = s.gradient)
    ∧ ((∃ e, ∀ s, (x.expand v).run s = .error e s) ∨
        ∃ writes : List (String × StyleValue), (∀ e ∈ writes, e.1 ∈ x.family) ∧ ∀ s,
          (x.expand v).run s = .ok () { s with properties := s.properties.insertMany writes }) :=
  ⟨fun _ _ _ => eq_of_refused, fun _ _ => framed_of_accepted, refuses_or_writes x v⟩

end Expander

end ScreenLayout
