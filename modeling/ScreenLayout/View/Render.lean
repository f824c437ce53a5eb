import ScreenLayout.Component.Dispatch
import ScreenLayout.Style.Compile
import ScreenLayout.View.Basic

/-!
# View/Render — views made from props

Props are read through the resolver, each by several keys in order: the first key that gives a text,
a number, a flag or an array counts.  Rendering never fails; what is missing has a default.

* `Resolver.firstText?`, `Resolver.firstNumber?`, `Resolver.firstFlag`, `Resolver.firstItems` — props
  read by keys.
* `View.render` — the view of a kind of component for some props.
-/

namespace ScreenLayout

namespace Resolver

variable (r : Resolver)

/-- The first number among several fields of an object. -/
def firstNumber? (props : Json) (keys : List String) : Option FiniteDouble :=
  keys.findSome? fun key => r.number? (r.field? props key)

/-- The first flag among several fields of an object, or a fallback. -/
def firstFlag (props : Json) (keys : List String) (fallback : Bool) : Bool :=
  (keys.findSome? fun key => r.bool? (r.field? props key)).getD fallback

/-- The items of the first array among several fields of an object. -/
def firstItems (props : Json) (keys : List String) : List Json :=
  (keys.findSome? fun key => r.items? (r.field? props key)).getD []

end Resolver

namespace View

variable (c : Config)

/-- The style among some props. -/
def styleOf (props : Json) (key : String) : Style := (compileField c props key).style

/-- A style with a property it does not have yet. -/
def withDefault (s : Style) (name : String) (v : StyleValue) : Style :=
  if s.contains name then s else s.insert name v

/-! ## Headers -/

/-- The height of a compact header without one of its own. -/
def compactHeight : FiniteDouble := .ofUInt64 56

/-- A header, compact on mobile screens: there it has a height and shows no search by default. -/
def header (compact : Bool) (props : Json) : View where
  kind := if compact then .mobileHeader else .header
  style :=
    let style := styleOf c props "style"
    if compact then withDefault style "height" (.number compactHeight) else style
  content :=
    let r := c.resolver
    .header ((r.firstText? props Section.labelKeys).getD "")
      (r.firstText? props ["subtitle", "tagline"])
      (r.firstText? props ["logo", "logoUrl", "logoSrc"])
      (r.firstFlag props ["showSearch", "search"] (!compact))
      (r.firstFlag props ["showCart", "cart"] true) compact

/-! ## Banners, images and carousels -/

def banner (props : Json) : View where
  kind := .banner
  style := styleOf c props "style"
  content :=
    let r := c.resolver
    .banner (r.firstText? props ["image", "imageUrl", "src", "backgroundImage"])
      (r.firstText? props ["heading", "title"])
      (r.firstText? props ["subheading", "subtitle", "description"])
      (r.firstText? props ["link", "url", "href"])

/-- The ratio of an image: that of its style, or else of its props, if it is above zero. -/
def aspectRatio? (style : Style) (props : Json) : Option Double :=
  (style.number? "aspectRatio"
    <|> (c.resolver.firstNumber? props ["aspectRatio", "ratio"]).map Double.finite).filter
    Double.isPositive

def image (props : Json) : View :=
  let r := c.resolver
  let style := styleOf c props "style"
  { kind := .image
    style
    content := .image
      ((r.firstText? props ["src", "source", "image", "imageUrl", "uri", "url"]).getD "")
      (r.firstText? props ["alt", "alternativeText", "caption"]) (aspectRatio? c style props) }

/-- An image that is no more than its source. -/
def bareImage (source : List Char) : View where
  kind := .image
  style := Style.empty
  content := .image (String.ofList source) none none

/-- The view of one slide: a banner for an object, an image for a text that is not blank. -/
def slide? (item : Json) : Option View :=
  match c.resolver.unwrap item with
  | some (.object _) => some (banner c item)
  | some (.string url) =>
    let source := Text.trim url.toList
    if source.isEmpty then none else some (bareImage source)
  | _ => none

/-- The time each slide is shown, without one given. -/
def defaultInterval : UInt64 := 3000

/-- A number above zero as milliseconds, rounded with a half up, at most the greatest word. -/
def intervalMs (x : Option FiniteDouble) : UInt64 :=
  match x.filter fun x => decide (FiniteDouble.zero < x) with
  | some x => .ofNat (min x.wholeMagnitude (UInt64.size - 1))
  | none => defaultInterval

def carousel (props : Json) : View where
  kind := .carousel
  style := styleOf c props "style"
  content :=
    let r := c.resolver
    .carousel (r.firstFlag props ["autoplay", "autoPlay"] false)
      (intervalMs (r.firstNumber? props ["interval", "intervalMs", "autoplayInterval"]))
      (r.firstFlag props ["showIndicators", "showDots", "dots"] true)
  children := (c.resolver.firstItems props ["items", "slides", "images"]).filterMap (slide? c)

/-! ## Buttons and texts -/

/-- The opacity of a disabled button without one of its own. -/
def disabledOpacity : FiniteDouble := FiniteDouble.one.half

def button (props : Json) : View :=
  let r := c.resolver
  let style := styleOf c props "style"
  let disabled := r.firstFlag props ["disabled", "isDisabled"] false
  { kind := .button
    style := if disabled then withDefault style "opacity" (.number disabledOpacity) else style
    content := .button ((r.firstText? props ["label", "text", "title"]).getD "Button")
      (r.firstText? props ["action", "url", "link", "href"]) disabled
      (styleOf c props "textStyle") }

/-- A number of at least one as a count of lines, cut to a whole one, at most the greatest word. -/
def lineLimit (x : Option FiniteDouble) : Option UInt32 :=
  (x.filter fun x => decide (FiniteDouble.one ≤ x)).map fun x =>
    .ofNat (min x.truncMagnitude (UInt32.size - 1))

def text (props : Json) : View where
  kind := .text
  style := styleOf c props "style"
  content :=
    let r := c.resolver
    .text ((r.firstText? props ["text", "content", "body"]).getD "")
      (lineLimit (r.firstNumber? props ["numberOfLines", "maxLines", "lines"]))

/-! ## Spacers, dividers and footers -/

def spacer (props : Json) : View :=
  let height := ((c.resolver.firstNumber? props ["height", "size"]).filter fun h =>
    decide (FiniteDouble.zero ≤ h)).getD (.ofUInt64 16)
  { kind := .spacer
    style := (styleOf c props "style").insert "height" (.number height)
    content := .spacer height }

def divider (props : Json) : View :=
  let thickness := ((c.resolver.firstNumber? props ["thickness", "height"]).filter fun t =>
    decide (FiniteDouble.zero < t)).getD FiniteDouble.one
  let color := (c.resolver.firstText? props ["color"]).getD "#e0e0e0"
  { kind := .divider
    style := ((styleOf c props "style").insert "height" (.number thickness)).insert
      "backgroundColor" (.text color)
    content := .divider thickness color }

/-- The link an item describes, if it has a label and an address. -/
def link? (item : Json) : Option Link :=
  match c.resolver.firstText? item ["label", "title", "text"],
      c.resolver.firstText? item ["url", "href", "link"] with
  | some label, some url => some { label, url }
  | _, _ => none

def footer (props : Json) : View where
  kind := .footer
  style := styleOf c props "style"
  content := .footer (c.resolver.firstText? props ["text", "copyright", "content"])
    ((c.resolver.firstItems props ["links", "items"]).filterMap (link? c))

/-- **The view of a kind of component for some props.** -/
def render (kind : ComponentKind) (props : Json) : View :=
  match kind with
  | .header => header c false props
  | .mobileHeader => header c true props
  | .banner => banner c props
  | .carousel => carousel c props
  | .button => button c props
  | .text => text c props
  | .image => image c props
  | .spacer => spacer c props
  | .divider => divider c props
  | .footer => footer c props

/-- A view has the kind it was rendered for. -/
theorem kind_render (kind : ComponentKind) (props : Json) : (render c kind props).kind = kind := by
  cases kind <;> rfl

end View

end ScreenLayout
