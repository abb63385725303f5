import Handset.Canvas.Display
import Handset.Canvas.Settings
import Handset.Graphics
import Handset.Limiter

/-! The images of a canvas. The application draws into `offscreen`; a finished drawing is copied to
`copy`, which is what is shown; `screen` is the frame for the display. -/

namespace Handset

/-- `presented` counts the frames that the display took. -/
structure Frame where
  offscreen : Image
  copy : Image
  screen : Image
  display : Display
  fps : Option FpsCounter
  presented : Nat := 0

namespace Frame

def ofLayout (layout : ScreenLayout) (display : Display) (fps : Option FpsCounter) : Frame where
  offscreen := .blank layout.width layout.height
  copy := .blank layout.width layout.height
  screen := .blank layout.displayWidth layout.displayHeight
  display := display
  fps := fps

/-- The image has the given sides. -/
def fits (image : Image) (width height : Int) : Bool :=
  image.width == width && image.height == height

/-- New images in place of those that no longer match the layout. -/
def resize (frame : Frame) (layout : ScreenLayout) : Frame :=
  let frame :=
    if fits frame.offscreen layout.width layout.height then frame
    else { frame with
      offscreen := .reallocate (some frame.offscreen) layout.width layout.height
      copy := .reallocate (some frame.copy) layout.width layout.height }
  if fits frame.screen layout.displayWidth layout.displayHeight then frame
  else { frame with
    screen := .reallocate (some frame.screen) layout.displayWidth layout.displayHeight }

/-- Makes the drawing at hand the one that is shown. -/
def finish (frame : Frame) : Frame :=
  { frame with copy := frame.offscreen.copyTo frame.copy }

/-- Shows an image instead of a drawing. -/
def submit (frame : Frame) (image : Image) : Frame :=
  { frame with copy := image.copyTo frame.copy }

/-- The screen cleared, with an image over a part of it. -/
def picture (screen image : Image) (background : UInt32) (place : Rect) (filter : Bool) :
    Except Fault Image :=
  let drawing : Draw Unit := do
    Draw.clear background
    Draw.drawImageScaled image place filter
  match drawing.run.run (Graphics.on screen) with
  | (.ok (), g) => .ok g.target
  | (.error fault, _) => .error fault

/-- Composes the frame and hands it to the display, whose refusal is the answer. A frame counts for
the rate of frames even when it is refused. Where the composition faults, what it put on the screen is
left out: nothing shows it before the screen is cleared again. -/
def compose (frame : Frame) (layout : ScreenLayout) (settings : Settings) (now : Nat) :
    Except Fault (Option Error × Frame) := do
  let screen ← picture frame.screen frame.copy (Settings.solid settings.background)
    layout.placement settings.filter
  let (result, display) := frame.display.present screen
  let fps := frame.fps.map (·.increment now)
  match result with
  | .ok () => return (none, { frame with screen, display, fps, presented := frame.presented + 1 })
  | .error error => return (some error, { frame with screen, display, fps })

/-- What is shown, at the size it has on the display. -/
def snapshot (frame : Frame) (layout : ScreenLayout) (filter : Bool) : Except Fault Image :=
  let place := layout.placement
  let image := Image.blank place.width place.height
  let drawing := Draw.drawImageScaled frame.copy ⟨0, 0, place.width, place.height⟩ filter
  match drawing.run.run (Graphics.on image) with
  | (.ok (), g) => .ok g.target
  | (.error fault, _) => .error fault

end Frame

end Handset
