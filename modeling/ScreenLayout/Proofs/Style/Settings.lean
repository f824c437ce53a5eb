import ScreenLayout.Proofs.Style.InPlace
import ScreenLayout.Proofs.Style.Merge

/-!
# Proofs/Style/Settings — how far the settings reach

Two settings with one bound on wrappers read every value alike.  The font size, the two numbers for
radii and the opacity of shadows enter only the numbers that are written, under one name each; no
decision to write or to refuse looks at them.  So both compile a dictionary in lock step: the same
properties and the same gradient, the same log, and values that differ under three names at most.

* `Config.SameFor` — settings that cannot differ for a property.
* `Style.Alike` — styles that differ only where the settings do; `alike_apply` — one step keeps that.
* `answersAlike_patch` — every rule answers alike under both.
* `compile_settings` — what two settings compile a dictionary to.
-/

namespace ScreenLayout

/-- **Settings that cannot differ for a property**: the numbers that enter its value are the same. -/
structure Config.SameFor (c c' : Config) (name : String) : Prop where
  letterSpacing : name = "letterSpacing" → c.baseFontSize = c'.baseFontSize
  borderRadius : name = "borderRadius" →
    c.pillRadius = c'.pillRadius ∧ c.roundedThreshold = c'.roundedThreshold
  shadowOpacity : name = "shadowOpacity" → c.shadowOpacity = c'.shadowOpacity

variable (c c' : Config)

/-! ## Styles in lock step -/

/-- **Properties alike**: of one name, and of one value where the settings cannot differ. -/
def AlikeProperty (a b : String × StyleValue) : Prop :=
  a.1 = b.1 ∧ (c.SameFor c' a.1 → a.2 = b.2)

/-- **Patches alike**: their writes are, one for one, and their gradients are the same. -/
structure StylePatch.Alike (p q : StylePatch) : Prop where
  writes : List.Forall₂ (AlikeProperty c c') p.writes q.writes
  gradient : p.gradient = q.gradient

/-- **Styles alike**: their properties are, one for one, and their gradients are the same. -/
structure Style.Alike (s t : Style) : Prop where
  entries : List.Forall₂ (AlikeProperty c c') s.properties.entries t.properties.entries
  gradient : s.gradient = t.gradient

variable {c c'}

theorem AlikeProperty.refl (a : String × StyleValue) : AlikeProperty c c' a a :=
  ⟨rfl, fun _ => rfl⟩

theorem forall₂_alike_refl (l : List (String × StyleValue)) :
    List.Forall₂ (AlikeProperty c c') l l :=
  List.forall₂_same.2 fun a _ => .refl a

theorem StylePatch.Alike.refl (p : StylePatch) : p.Alike c c' p := ⟨forall₂_alike_refl _, rfl⟩

/-- Patches of one write to the same name. -/
theorem StylePatch.alike_one {name : String} {v w : StyleValue} (h : c.SameFor c' name → v = w) :
    (one name v).Alike c c' (one name w) :=
  ⟨.cons ⟨rfl, h⟩ .nil, rfl⟩

/-- **Patches alike keep styles alike.** -/
theorem Style.alike_apply {s t : Style} {p q : StylePatch} (hs : s.Alike c c' t)
    (hp : p.Alike c c' q) : (s.apply p).Alike c c' (t.apply q) where
  entries := Properties.forall₂_insertMany (fun h => h.1) hp.writes hs.entries
  gradient := by rw [apply, apply, hp.gradient, hs.gradient]

/-- Styles alike have the same names, in the same order. -/
theorem Style.Alike.names_eq {s t : Style} (h : s.Alike c c' t) :
    s.properties.names = t.properties.names := by
  have hnames : List.Forall₂ (· = ·) s.properties.names t.properties.names :=
    List.forall₂_map_left_iff.2 (List.forall₂_map_right_iff.2 (h.entries.imp fun _ _ hab => hab.1))
  rwa [List.forall₂_eq_eq_eq] at hnames

/-- **Styles alike have the same value** where the settings cannot differ. -/
theorem Style.Alike.get?_eq {s t : Style} (h : s.Alike c c' t) {name : String}
    (hname : c.SameFor c' name) : s.get? name = t.get? name := by
  have hlookup : ∀ {xs ys : List (String × StyleValue)},
      List.Forall₂ (AlikeProperty c c') xs ys → xs.lookup name = ys.lookup name := by
    intro xs ys hxs
    induction hxs with
    | nil => rfl
    | @cons a b xs ys hhead _ ih =>
      obtain ⟨other, u⟩ := a
      obtain ⟨other', u'⟩ := b
      obtain rfl : other = other' := hhead.1
      rw [Properties.lookup_cons_eq_ite, Properties.lookup_cons_eq_ite, ih]
      split
      · rename_i hother
        exact congrArg some (hhead.2 (hother ▸ hname))
      · rfl
  exact hlookup h.entries

/-! ## Answers -/

/-- **Answers alike**: both are the same refusal, or what they accept is related. -/
inductive AnswersAlike {ε α : Type} (R : α → α → Prop) : Except ε α → Except ε α → Prop
  | refused (error : ε) : AnswersAlike R (.error error) (.error error)
  | accepted {a b : α} (h : R a b) : AnswersAlike R (.ok a) (.ok b)

namespace AnswersAlike

variable {ε ε' α β : Type} {R : α → α → Prop} {S : β → β → Prop} {x y : Except ε α}

theorem refl (hR : ∀ a, R a a) (x : Except ε α) : AnswersAlike R x x := by
  cases x with
  | error error => exact .refused error
  | ok a => exact .accepted (hR a)

theorem map (h : AnswersAlike R x y) {f : α → β} (hf : ∀ {a b}, R a b → S (f a) (f b)) :
    AnswersAlike S (x.map f) (y.map f) := by
  cases h with
  | refused error => exact .refused error
  | accepted h => exact .accepted (hf h)

theorem mapError (h : AnswersAlike R x y) (f : ε → ε') :
    AnswersAlike R (x.mapError f) (y.mapError f) := by
  cases h with
  | refused error => exact .refused (f error)
  | accepted h => exact .accepted h

/-- What one accepts, the other accepts too. -/
theorem exists_of_ok (h : AnswersAlike R x y) {a : α} (hx : x = .ok a) : ∃ b, y = .ok b := by
  cases h with
  | refused error => cases hx
  | @accepted _ b _ => exact ⟨b, rfl⟩

end AnswersAlike

/-- Both accept the value a rule reads, or neither does. -/
theorem answersAlike_orUnreadable {α : Type} {property : String} {v : Json} {f : α → StylePatch}
    {read read' : Option α} {R : α → α → Prop} (h : Option.Rel R read read')
    (hf : ∀ {a b}, R a b → (f a).Alike c c' (f b)) :
    AnswersAlike (StylePatch.Alike c c') (Rule.orUnreadable property v f read)
      (Rule.orUnreadable property v f read') := by
  cases h with
  | none => exact .refused _
  | some h => exact .accepted (hf h)

/-! ## The numbers of the settings -/

/-- **The font size scales a length in `em`**, and has no say in which lengths there are. -/
theorem rel_toPoints? (d : Dimension) (fontSize fontSize' : Double) :
    Option.Rel (fun x y => fontSize = fontSize' → x = y) (d.toPoints? fontSize)
      (d.toPoints? fontSize') := by
  obtain ⟨value, unit⟩ := d
  cases unit with
  | none => exact .some fun _ => rfl
  | some unit =>
    cases unit with
    | px | pt | dp => exact .some fun _ => rfl
    | em | rem => exact .some fun h => congrArg (Double.finite value * ·) h
    | percent | deg | vw | vh => exact .none

theorem rel_letterSpacing? (v : Json) :
    Option.Rel (fun x y => c.baseFontSize = c'.baseFontSize → x = y) (letterSpacing? c v)
      (letterSpacing? c' v) := by
  unfold letterSpacing?
  split
  · exact .some fun _ => rfl
  · rename_i s
    cases Dimension.parse? s.toList with
    | none => exact .none
    | some d => exact rel_toPoints? d c.baseFontSize c'.baseFontSize
  · exact .none

/-- **The numbers for radii** decide which radius is written, and not whether one is. -/
theorem answersAlike_borderRadius (v : Json) :
    AnswersAlike (fun x y => c.SameFor c' "borderRadius" → x = y) (Shorthand.borderRadius c v)
      (Shorthand.borderRadius c' v) := by
  have hrounded : ∀ x, c.SameFor c' "borderRadius" →
      Shorthand.roundedRadius c x = Shorthand.roundedRadius c' x := by
    intro x h
    obtain ⟨hpill, hthreshold⟩ := h.borderRadius rfl
    rw [Shorthand.roundedRadius, Shorthand.roundedRadius, hpill, hthreshold]
  have htext : ∀ cs, AnswersAlike (fun x y => c.SameFor c' "borderRadius" → x = y)
      (Shorthand.radiusOfText c cs) (Shorthand.radiusOfText c' cs) := by
    intro cs
    unfold Shorthand.radiusOfText
    split
    · exact .refused _
    · split
      · exact .refused _
      · refine .accepted fun h => ?_
        rw [hrounded _ h, (h.borderRadius rfl).1]
  refine AnswersAlike.mapError ?_ _
  split
  · exact .accepted (hrounded _)
  · exact htext _
  · exact .refused _

theorem alike_shadowWrites (x y blur : FiniteDouble) (color : Option (List Char)) :
    List.Forall₂ (AlikeProperty c c') (Shorthand.shadowWrites c x y blur color)
      (Shorthand.shadowWrites c' x y blur color) := by
  have hopacity : AlikeProperty c c' ("shadowOpacity", .number c.shadowOpacity)
      ("shadowOpacity", .number c'.shadowOpacity) :=
    ⟨rfl, fun h => congrArg StyleValue.number (h.shadowOpacity rfl)⟩
  exact .cons (.refl _) (.cons (.refl _) (.cons hopacity (forall₂_alike_refl _)))

/-- **The opacity of shadows** is written with every shadow, and refuses none. -/
theorem answersAlike_boxShadow (v : Json) :
    AnswersAlike (StylePatch.Alike c c') (Shorthand.boxShadow c v) (Shorthand.boxShadow c' v) := by
  refine AnswersAlike.mapError ?_ _
  split
  · unfold Shorthand.shadowOfText
    split
    · exact .refused _
    · dsimp only
      split
      · exact .accepted ⟨alike_shadowWrites _ _ _ _, rfl⟩
      · exact .refused _
  · exact .refused _

/-! ## Rules and entries -/

section SameBound

variable (hdepth : c.maxDepth = c'.maxDepth)

include hdepth

theorem resolver_eq : c.resolver = c'.resolver := congrArg Resolver.mk hdepth

/-- **Every rule answers alike** under settings with one bound. -/
theorem answersAlike_patch (property : String) (v : Json) (rule : Rule) :
    AnswersAlike (StylePatch.Alike c c') (rule.patch c property v) (rule.patch c' property v) := by
  cases rule with
  | letterSpacing =>
    exact answersAlike_orUnreadable (rel_letterSpacing? v) fun h =>
      StylePatch.alike_one fun hsame => congrArg StyleValue.number (h (hsame.letterSpacing rfl))
  | borderRadius =>
    exact (answersAlike_borderRadius v).map fun h =>
      StylePatch.alike_one fun hsame => congrArg StyleValue.number (h hsame)
  | boxShadow => exact answersAlike_boxShadow v
  | fontVariant =>
    rw [Rule.patch, Rule.patch, resolver_eq hdepth]
    exact .refl .refl _
  | _ => exact .refl .refl _

theorem wrapperEvents_eq (v : Json) : wrapperEvents c v = wrapperEvents c' v := by
  rw [wrapperEvents, wrapperEvents, resolver_eq hdepth, hdepth]

theorem itemEvents_eq (rule : Rule) (v : Json) : itemEvents c rule v = itemEvents c' rule v := by
  unfold itemEvents
  split
  · exact List.flatMap_congr fun item _ => wrapperEvents_eq hdepth item
  · rfl

/-- **An entry is compiled alike**: the patches are, and the events are the same. -/
theorem compileEntry_alike (entry : String × Json) :
    (compileEntry c entry).patch.Alike c c' (compileEntry c' entry).patch
      ∧ (compileEntry c entry).events = (compileEntry c' entry).events := by
  unfold compileEntry
  dsimp only
  rw [resolver_eq hdepth, wrapperEvents_eq hdepth]
  split
  · exact ⟨.refl _, rfl⟩
  · rename_i v _
    have hanswer := answersAlike_patch hdepth (canonicalName entry.1) v
      (Rule.ofName (canonicalName entry.1))
    rw [itemEvents_eq hdepth]
    generalize (Rule.ofName (canonicalName entry.1)).patch c (canonicalName entry.1) v = x at hanswer ⊢
    generalize (Rule.ofName (canonicalName entry.1)).patch c' (canonicalName entry.1) v = y at hanswer ⊢
    cases hanswer with
    | refused error => exact ⟨.refl _, rfl⟩
    | accepted h => exact ⟨h, rfl⟩

/-- **A dictionary is compiled alike**, entry after entry. -/
theorem alike_compile (entries : List (String × Json)) :
    (compile c entries).style.Alike c c' (compile c' entries).style := by
  rw [style_compile_eq_foldl, style_compile_eq_foldl]
  exact List.foldl_rel ⟨.nil, rfl⟩ fun entry _ _ _ h =>
    Style.alike_apply h (compileEntry_alike hdepth entry).1

theorem events_compile_eq (entries : List (String × Json)) :
    (compile c entries).events = (compile c' entries).events := by
  rw [events_compile_eq_flatMap, events_compile_eq_flatMap]
  exact List.flatMap_congr fun entry _ => (compileEntry_alike hdepth entry).2

end SameBound

/-! ## Dictionaries -/

/-- **An entry is accepted**: its value resolves, and the rule of its name does not refuse it. -/
def Accepted (c : Config) (entry : String × Json) : Prop :=
  ∃ v p, c.resolver.unwrap entry.2 = some v ∧
    (Rule.ofName (canonicalName entry.1)).patch c (canonicalName entry.1) v = .ok p

theorem accepted_of_accepted (hdepth : c.maxDepth = c'.maxDepth) {entry : String × Json}
    (h : Accepted c entry) : Accepted c' entry := by
  obtain ⟨v, p, hv, hp⟩ := h
  obtain ⟨q, hq⟩ := (answersAlike_patch hdepth (canonicalName entry.1) v
    (Rule.ofName (canonicalName entry.1))).exists_of_ok hp
  exact ⟨v, q, resolver_eq hdepth ▸ hv, hq⟩

/-- **The settings reach the outputs they are for, and no others.**  Two settings with one bound on
wrappers compile a dictionary to the same properties and the same gradient with the same log, and to
the same value of each property whose numbers they share: all but `letterSpacing`, `borderRadius` and
`shadowOpacity` have none.  They accept the same entries. -/
theorem compile_settings (c c' : Config) (hdepth : c.maxDepth = c'.maxDepth)
    (entries : List (String × Json)) :
    (compile c entries).style.properties.names = (compile c' entries).style.properties.names
      ∧ (compile c entries).style.gradient = (compile c' entries).style.gradient
      ∧ (compile c entries).events = (compile c' entries).events
      ∧ (∀ name, c.SameFor c' name →
        (compile c entries).style.get? name = (compile c' entries).style.get? name)
      ∧ (∀ name, name ∉ ["letterSpacing", "borderRadius", "shadowOpacity"] → c.SameFor c' name)
      ∧ (∀ entry, Accepted c entry ↔ Accepted c' entry) := by
  have halike := alike_compile hdepth entries
  refine ⟨halike.names_eq, halike.gradient, events_compile_eq hdepth entries,
    fun name hname => halike.get?_eq hname, fun name hname => ?_, fun entry => ?_⟩
  · simp only [List.mem_cons, List.not_mem_nil, or_false, not_or] at hname
    obtain ⟨hspacing, hradius, hopacity⟩ := hname
    exact ⟨fun h => absurd h hspacing, fun h => absurd h hradius, fun h => absurd h hopacity⟩
  · exact ⟨accepted_of_accepted hdepth, accepted_of_accepted hdepth.symm⟩

/-- Settings with small letters, small pills and dark shadows. -/
def compactSettings : Config where
  baseFontSize := FiniteDouble.ofUInt64 10
  pillRadius := FiniteDouble.ofUInt64 50
  roundedThreshold := FiniteDouble.ofUInt64 8
  shadowOpacity := FiniteDouble.one

/-- A card with a spacing, a radius, a shadow, a gradient and a property that is refused. -/
def cardStyle : List (String × Json) :=
  [("letterSpacing", .string "2em"), ("borderRadius", .string "12px"),
    ("boxShadow", .string "0 2px 4px black"), ("background", .string "linear-gradient(red, blue)"),
    ("gap", .string "4px")]

/-- A card has the same properties, shadow offset and log under both settings, and another spacing,
radius and opacity. -/
theorem compile_settings_card :
    Config.maxDepth {} = compactSettings.maxDepth
      ∧ (compile {} cardStyle).style.properties.names
        = (compile compactSettings cardStyle).style.properties.names
      ∧ (compile {} cardStyle).style.gradient = (compile compactSettings cardStyle).style.gradient
      ∧ (compile {} cardStyle).events = (compile compactSettings cardStyle).events
      ∧ Config.SameFor {} compactSettings "shadowOffset"
      ∧ (compile {} cardStyle).style.get? "shadowOffset"
        = (compile compactSettings cardStyle).style.get? "shadowOffset"
      ∧ (∀ name ∈ ["letterSpacing", "borderRadius", "shadowOpacity"],
        (compile {} cardStyle).style.get? name ≠ (compile compactSettings cardStyle).style.get? name)
      ∧ (Accepted {} ("gap", .string "4px") ↔ Accepted compactSettings ("gap", .string "4px")) := by
  obtain ⟨hnames, hgradient, hevents, hsame, hothers, haccepted⟩ :=
    compile_settings {} compactSettings rfl cardStyle
  have hoffset : Config.SameFor {} compactSettings "shadowOffset" := hothers _ (by decide)
  exact ⟨rfl, hnames, hgradient, hevents, hoffset, hsame _ hoffset, by decide +kernel, haccepted _⟩

end ScreenLayout
