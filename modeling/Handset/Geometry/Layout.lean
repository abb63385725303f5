import Handset.Floating
import Handset.Geometry.Rect

/-! The virtual screen an application draws on, and the place it takes on the display. The layout is
a function of the sizes and flags in `Sizing` alone. -/

namespace Handset

/-- What a layout depends on. A negative virtual size is derived from the shape of the display, and
`scaleRatio` is a percentage. -/
structure Sizing where
  displayWidth : Int := 240
  displayHeight : Int := 320
  virtualWidth : Int := -1
  virtualHeight : Int := -1
  fullscreen : Bool := false
  scaleToFit : Bool := true
  keepAspectRatio : Bool := true
  scaleRatio : Int := 100
  reservedHeight : Int := 0
  deriving DecidableEq, Repr

/-- The virtual screen is `width` by `height`, and would be `maxHeight` high in full screen mode. It
is shown at `placement` on the display. -/
structure ScreenLayout where
  displayWidth : Int
  displayHeight : Int
  width : Int
  height : Int
  maxHeight : Int
  placement : Rect
  deriving DecidableEq, Repr

namespace Sizing

/-- The part of its width that a canvas is high when it leaves room for title and key bars. -/
def windowedRatio : Single :=
  .nearest false 85 100 0

/-- A percentage of a length, at least one pixel. -/
def percentOf (percent length : Int) : Int :=
  clamp 1 greatestInt ((length * percent).tdiv 100)

/-- The size of the virtual screen in full screen mode, before it is made positive. A missing side
follows the shape of the `width` by `height` part of the display. -/
def virtualSize (input : Sizing) (width height : Int) : Except Fault (Int × Int) := do
  if input.virtualWidth < 0 ∧ input.virtualHeight < 0 then return (width, height)
  if input.virtualWidth < 0 then
    return ((← Checked.mul width input.virtualHeight).tdiv height, input.virtualHeight)
  if input.virtualHeight < 0 then
    return (input.virtualWidth, (← Checked.mul height input.virtualWidth).tdiv width)
  return (input.virtualWidth, input.virtualHeight)

/-- The height of a canvas that leaves room for title and key bars. -/
def windowedHeight (width : Int) : Int :=
  max (Floating.ofInt width * windowedRatio).round 1

/-- `numerator * length / denominator`, each step rounded to a single and the result cut to an
integer. -/
def proportion (numerator length denominator : Int) : Int :=
  ((Floating.ofInt numerator : Single) * .ofInt length / .ofInt denominator).truncate

/-- The size on a display with `roomWidth` by `roomHeight` pixels to use. -/
def fittedSize (input : Sizing) (width height roomWidth roomHeight : Int) : Int × Int :=
  if !input.scaleToFit then (width, height)
  else if !input.keepAspectRatio then (roomWidth, roomHeight)
  else
    let fitted := proportion height roomWidth width
    if roomHeight < fitted then (proportion width roomHeight height, roomHeight)
    else (roomWidth, fitted)

/-- The size brought down to the display when it spills over, both sides by the same factor. -/
def shrunkSize (width height displayWidth displayHeight : Int) : Int × Int :=
  if displayWidth < width ∨ displayHeight < height then
    let factor : Single := Floating.lesser (.ofInt displayWidth / .ofInt width)
      (.ofInt displayHeight / .ofInt height)
    ((Floating.ofInt width * factor).truncate, (Floating.ofInt height * factor).truncate)
  else (width, height)

/-- The place of a screen on the display: centred, but at the top of a display that is higher than
wide, which is held by its bottom edge. -/
def place (width height displayWidth displayHeight : Int) : Rect where
  x := (displayWidth - width).tdiv 2
  y := if displayHeight ≤ displayWidth then (displayHeight - height).tdiv 2 else 0
  width := width
  height := height

def layout (input : Sizing) : Except Fault ScreenLayout := do
  let displayWidth := max input.displayWidth 1
  let displayHeight := max input.displayHeight 1
  let room := max (← Checked.sub displayHeight input.reservedHeight) 1
  let (virtualWidth, virtualHeight) ← input.virtualSize displayWidth room
  let width := max virtualWidth 1
  let maxHeight := max virtualHeight 1
  let height := if input.fullscreen then maxHeight else windowedHeight width
  let (fittedWidth, fittedHeight) := input.fittedSize width height displayWidth room
  let (shownWidth, shownHeight) :=
    shrunkSize (percentOf input.scaleRatio fittedWidth) (percentOf input.scaleRatio fittedHeight)
      displayWidth displayHeight
  return {
    displayWidth, displayHeight, width, height, maxHeight
    placement := place (clamp 1 displayWidth shownWidth) (clamp 1 displayHeight shownHeight)
      displayWidth displayHeight }

end Sizing

namespace ScreenLayout

/-- The whole display. -/
def screen (layout : ScreenLayout) : Rect :=
  ⟨0, 0, layout.displayWidth, layout.displayHeight⟩

/-- The point of the virtual screen that a point of the display shows. -/
def toVirtual (layout : ScreenLayout) (x y : Single) : Single × Single :=
  let scale (v : Single) (offset extent shown : Int) : Single :=
    (v - .ofInt offset) * .ofInt extent / .ofInt (max shown 1)
  (scale x layout.placement.x layout.width layout.placement.width,
    scale y layout.placement.y layout.height layout.placement.height)

end ScreenLayout

end Handset
