import ScreenLayout.Component.Kind
import ScreenLayout.Style.Basic

/-!
# View/Basic — rendered components

A view is a component ready to be drawn: its kind, its compiled style, the content of that kind, and
the views inside it.

* `Content.toJson`, `View.toJson` — content and views as data.
-/

namespace ScreenLayout

/-- A link with its label. -/
structure Link where
  label : String
  url : String
deriving DecidableEq

/-- **What a component shows**, by kind; both headers have one form. -/
inductive Content where
  | header (title : String) (subtitle logo : Option String) (showSearch showCart compact : Bool)
  | banner (image heading subheading link : Option String)
  | carousel (autoplay : Bool) (intervalMs : UInt64) (showIndicators : Bool)
  | button (label : String) (action : Option String) (disabled : Bool) (labelStyle : Style)
  | text (text : String) (maxLines : Option UInt32)
  | image (source : String) (alt : Option String) (aspectRatio : Option Double)
  | spacer (height : FiniteDouble)
  | divider (thickness : FiniteDouble) (color : String)
  | footer (text : Option String) (links : List Link)
deriving DecidableEq

/-- **A rendered component.** -/
structure View where
  kind : ComponentKind
  style : Style
  content : Content
  children : List View := []

namespace View

mutual

/-- Equality of views is decidable. -/
def decEq : (a b : View) → Decidable (a = b)
  | ⟨kind, style, content, children⟩, ⟨kind', style', content', children'⟩ =>
    if h : kind = kind' ∧ style = style' ∧ content = content' then
      match decEqList children children' with
      | isTrue hc => isTrue (by rw [h.1, h.2.1, h.2.2, hc])
      | isFalse hc => isFalse (by simp [hc])
    else isFalse (by rintro ⟨⟩; exact h ⟨rfl, rfl, rfl⟩)

/-- Equality of lists of views is decidable. -/
def decEqList : (xs ys : List View) → Decidable (xs = ys)
  | [], [] => isTrue rfl
  | [], _ :: _ => isFalse (by simp)
  | _ :: _, [] => isFalse (by simp)
  | x :: xs, y :: ys => match decEq x y with
    | isFalse h => isFalse (by simp [h])
    | isTrue h => match decEqList xs ys with
      | isTrue hs => isTrue (by rw [h, hs])
      | isFalse hs => isFalse (by simp [hs])

end

instance : DecidableEq View := decEq

end View

/-- A link as data. -/
def Link.toJson (l : Link) : Json := .object [("label", .string l.label), ("url", .string l.url)]

/-- The members of a content besides its type. -/
def Content.members : Content → List (String × Json)
  | header title subtitle logo showSearch showCart compact =>
    [("title", .string title), ("subtitle", .ofString? subtitle), ("logo", .ofString? logo),
     ("show_search", .bool showSearch), ("show_cart", .bool showCart), ("compact", .bool compact)]
  | banner picture heading subheading link =>
    [("image", .ofString? picture), ("heading", .ofString? heading),
     ("subheading", .ofString? subheading), ("link", .ofString? link)]
  | carousel autoplay intervalMs showIndicators =>
    [("autoplay", .bool autoplay), ("interval_ms", .number (.ofUInt64 intervalMs)),
     ("show_indicators", .bool showIndicators)]
  | button label action disabled labelStyle =>
    [("label", .string label), ("action", .ofString? action), ("disabled", .bool disabled),
     ("label_style", labelStyle.toJson)]
  | text words maxLines =>
    [("text", .string words),
     ("max_lines", (maxLines.map fun n => Json.number (.ofUInt32 n)).getD .null)]
  | image source alt aspectRatio =>
    [("source", .string source), ("alt", .ofString? alt),
     ("aspect_ratio", (aspectRatio.map Json.ofDouble).getD .null)]
  | spacer height => [("height", .number (.double height))]
  | divider thickness color =>
    [("thickness", .number (.double thickness)), ("color", .string color)]
  | footer closing links =>
    [("text", .ofString? closing), ("links", .array (links.map Link.toJson))]

/-- The word for the form of a content. -/
def Content.typeName : Content → String
  | header .. => "header"
  | banner .. => "banner"
  | carousel .. => "carousel"
  | button .. => "button"
  | text .. => "text"
  | image .. => "image"
  | spacer .. => "spacer"
  | divider .. => "divider"
  | footer .. => "footer"

/-- A content as data, its type first. -/
def Content.toJson (content : Content) : Json :=
  .object (("type", .string content.typeName) :: content.members)

/-- **A view as data**; without views inside it has no member for them. -/
def View.toJson : View → Json
  | ⟨kind, style, content, children⟩ =>
    .object <| [("kind", .string kind.id), ("style", style.toJson), ("content", content.toJson)]
      ++ if children.isEmpty then [] else [("children", .array (children.map View.toJson))]

end ScreenLayout
