import ScreenLayout.Proofs.Style.Expansion
import ScreenLayout.Proofs.Style.GradientText
import ScreenLayout.Style.Compile

/-!
# Proofs/Style/InPlace — a dictionary written in place

An entry is compiled into the style that is there, which its rule could read, empty or leave half
written.  None does: a rule comes to its patch, and what it tells of is read off its value alone.  So an
entry is a patch and some events, whatever stood there before, and a dictionary is its patches in their
order.

* `Rule.apply_eq` — a rule written in place comes to its patch, or to its refusal.
* `compileEntry` — the patch and the events of one entry.
* `compileInto_eq` — one entry compiled into anything.
* `style_compile_eq_foldl`, `events_compile_eq_flatMap` — a dictionary.
-/

namespace ScreenLayout

open StyleWriter

variable (c : Config) {property : String} {v : Json}

namespace Compiler

/-! ## Writing and telling -/

/-- **A patch written at once** after some events, or its refusal. -/
def ofPatch (events : List StyleEvent) (r : Except StyleError StylePatch) : Compiler Unit := do
  log events
  write (StyleWriter.ofPatch r)

/-- Without events there is only what is written. -/
theorem ofPatch_nil (r : Except StyleError StylePatch) : ofPatch [] r = write (.ofPatch r) := by
  refine funext fun out => ?_
  have hlog : (ofPatch [] r).run out = (write (StyleWriter.ofPatch r)).run (out.log []) := rfl
  rwa [Compiled.log_nil] at hlog

theorem write_eq {w : StyleWriter Unit} {r : Except StyleError StylePatch} (h : w = .ofPatch r) :
    write w = ofPatch [] r := by
  rw [h, ofPatch_nil]

/-- **Items unwrapped in turn** are told of in turn. -/
theorem unwrapAll_eq (items : List Json) : unwrapAll c items = fun out =>
    .ok (items.filterMap c.resolver.unwrap) (out.log (items.flatMap (wrapperEvents c))) := by
  induction items with
  | nil => exact funext fun out => congrArg (EStateM.Result.ok []) out.log_nil.symm
  | cons item items ih =>
    refine funext fun out => ?_
    rw [unwrapAll, ih, List.flatMap_cons, Compiled.log_append]
    cases h : c.resolver.unwrap item with
    | none =>
      rw [List.filterMap_cons_none h, unwrap, h]
      rfl
    | some v =>
      rw [List.filterMap_cons_some h, unwrap, h]
      rfl

end Compiler

/-! ## Rules -/

/-- The events of the values that a rule unwraps in turn: the items of an array of font variants. -/
def itemEvents : Rule → Json → List StyleEvent
  | .fontVariant, .array items => items.flatMap (wrapperEvents c)
  | _, _ => []

namespace Rule

theorem put_eq_ofPatch (name : String) (w : StyleValue) : put name w = .ofPatch (.ok (.one name w)) :=
  rfl

/-- **A value that must be there** is read before its property is written. -/
theorem require_put {α : Type} (name : String) (f : α → StyleValue) (read : Option α) :
    (do let a ← require (.invalidValue property (.unreadable v)) read; put name (f a))
      = .ofPatch (orUnreadable property v (fun a => .one name (f a)) read) := by
  cases read <;> rfl

/-- **A background comes to its patch**: whether the gradient or the colour is written first does not
show. -/
theorem writeBackground_eq (property : String) (v : Json) :
    writeBackground property v = .ofPatch ((backgroundPatch v).mapError (.invalidValue property)) := by
  cases v with
  | string s =>
    rw [writeBackground, backgroundPatch]
    dsimp only
    by_cases hgradient : Gradient.isGradient (Text.trim s.toList)
    · rw [if_pos hgradient, if_pos hgradient]
      cases hread : Gradient.parse? (Text.trim s.toList) with
      | some g =>
        obtain ⟨angle, colors, rfl, hne, -⟩ := Gradient.exists_of_parse? hread
        obtain ⟨color, colors, rfl⟩ := List.exists_cons_of_ne_nil hne
        rfl
      | none =>
        cases Token.firstColor? (Text.trim s.toList) <;> rfl
    · rw [if_neg hgradient, if_neg hgradient]
      rfl
  | _ => rfl

/-- **The variants of a font are read** as they stand, the items of an array with what they tell of. -/
theorem readVariants_eq (v : Json) : readVariants c v = fun out =>
    .ok (fontVariants c.resolver v) (out.log (itemEvents c .fontVariant v)) := by
  cases v with
  | array items =>
    rw [readVariants, Compiler.unwrapAll_eq]
    rfl
  | _ => exact funext fun out => congrArg (EStateM.Result.ok _) out.log_nil.symm

/-- **A rule written in place comes to its patch**, or to its refusal; and what it tells of is read off
the value alone. -/
theorem apply_eq (property : String) (v : Json) (rule : Rule) :
    rule.apply c property v = .ofPatch (itemEvents c rule v) (rule.patch c property v) := by
  cases rule with
  | unsupported => exact (Compiler.ofPatch_nil (.error (.unsupported property))).symm
  | box => exact Compiler.write_eq (Shorthand.expandBox_eq property v)
  | border side => exact Compiler.write_eq (Shorthand.expandBorder_eq property side v)
  | font => exact Compiler.write_eq (Shorthand.expandFont_eq v)
  | boxShadow => exact Compiler.write_eq (Shorthand.expandBoxShadow_eq c v)
  | background => exact Compiler.write_eq (writeBackground_eq property v)
  | borderRadius =>
    refine Compiler.write_eq ?_
    rw [patch]
    cases Shorthand.borderRadius c v <;> rfl
  | opacity | opacityPercent | fontFamily | fontWeight | letterSpacing =>
    exact Compiler.write_eq (require_put _ _ _)
  | fontVariant =>
    rw [apply, readVariants_eq, patch]
    cases fontVariants c.resolver v <;> rfl
  | lengthAs | fontStyle | textDecoration | objectFit | keyword | length | unitless | other =>
    exact Compiler.write_eq (put_eq_ofPatch _ _)

end Rule

/-! ## Entries -/

/-- What one entry writes, and the events it gives rise to. -/
structure CompiledEntry where
  patch : StylePatch := {}
  events : List StyleEvent := []
deriving DecidableEq

/-- **What an entry comes to**, whatever it is compiled into. -/
def compileEntry (entry : String × Json) : CompiledEntry :=
  let property := canonicalName entry.1
  match c.resolver.unwrap entry.2 with
  | none => { events := wrapperEvents c entry.2 ++ [.unresolvable property] }
  | some v =>
    let rule := Rule.ofName property
    match rule.patch c property v with
    | .ok patch => { patch, events := itemEvents c rule v }
    | .error error => { events := itemEvents c rule v ++ [.refused property error] }

/-- A value that resolves lies not too deep. -/
theorem wrapperEvents_of_unwrap {w : Json} (h : c.resolver.unwrap w = some v) :
    wrapperEvents c w = [] := by
  rw [Resolver.unwrap] at h
  rw [wrapperEvents]
  cases hpeel : c.resolver.peel w with
  | value => rfl
  | null => rfl
  | tooDeep =>
    rw [hpeel] at h
    cases h

/-- **An entry compiled into anything** adds its patch and its events: what stood there is neither read
nor removed, and a refusal leaves nothing behind but its event. -/
theorem compileInto_eq (out : Compiled) (entry : String × Json) :
    compileInto c out entry = { style := out.style.apply (compileEntry c entry).patch
                                events := out.events ++ (compileEntry c entry).events } := by
  rw [compileInto, compileEntry]
  cases hv : c.resolver.unwrap entry.2 with
  | none =>
    dsimp only
    rw [← Compiled.log_append]
    rfl
  | some v =>
    dsimp only
    rw [wrapperEvents_of_unwrap c hv, Compiled.log_nil, Rule.apply_eq]
    cases (Rule.ofName (canonicalName entry.1)).patch c (canonicalName entry.1) v with
    | error e => exact (out.log_append _ [.refused (canonicalName entry.1) e]).symm
    | ok p => rfl

/-! ## Dictionaries -/

/-- **Entries compiled into anything** add their patches and their events in their order. -/
theorem foldl_compileInto (entries : List (String × Json)) (out : Compiled) :
    entries.foldl (compileInto c) out
      = { style := entries.foldl (fun s entry => s.apply (compileEntry c entry).patch) out.style
          events := out.events ++ entries.flatMap fun entry => (compileEntry c entry).events } := by
  induction entries generalizing out with
  | nil => exact congrArg (Compiled.mk out.style) (List.append_nil out.events).symm
  | cons entry entries ih =>
    rw [List.foldl_cons, ih, compileInto_eq, List.flatMap_cons, List.append_assoc]
    rfl

variable (entries : List (String × Json))

/-- **A dictionary is its patches** in their order. -/
theorem style_compile_eq_foldl : (compile c entries).style
    = entries.foldl (fun s entry => s.apply (compileEntry c entry).patch) Style.empty :=
  congrArg Compiled.style (foldl_compileInto c entries Compiled.nothing)

/-- **The log of a dictionary** is the events of its entries. -/
theorem events_compile_eq_flatMap :
    (compile c entries).events = entries.flatMap fun entry => (compileEntry c entry).events :=
  congrArg Compiled.events (foldl_compileInto c entries Compiled.nothing)

end ScreenLayout
