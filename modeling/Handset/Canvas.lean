import Handset.Canvas.Frame
import Handset.Canvas.Overlay
import Handset.Key.Held

/-! A canvas: the virtual screen of one application, with its settings, its images and its input.
What an operation asks of the queue is given as the events to post. -/

namespace Handset

/-- `sizeReported` says that the application was told a size; `suppressGameKeys` keeps game keys
from being posted, so that they only count as held. -/
structure Canvas where
  settings : Settings
  layout : ScreenLayout
  frame : Frame
  keyLayout : KeyLayout
  hostKeys : HostKeys
  overlay : Option Overlay := none
  limiter : Limiter
  shown : Bool := false
  sizeReported : Bool := false
  held : HeldKeys := {}
  suppressGameKeys : Bool := false

namespace Canvas

/-- A canvas for a display of the given size. It starts hidden. -/
def create (config : Config) (kind : DisplayKind) (displayWidth displayHeight : Int) (now : Nat) :
    Except Fault Canvas := do
  let settings := Settings.ofConfig config displayWidth displayHeight
  let layout ← settings.layout
  let fps := if config.display.showFps then some { windowStart := now } else none
  return {
    settings, layout
    frame := .ofLayout layout { kind } fps
    keyLayout := config.input.layout
    hostKeys := ⟨config.input.keyBindings⟩
    limiter := { fpsLimit := config.performance.fpsLimit } }

/-- Computes the layout anew and fits the images to it. The answer is whether the size of the canvas
changed. -/
def updateSize (canvas : Canvas) : Except Fault (Bool × Canvas) := do
  let layout ← canvas.settings.layout
  let previous := canvas.layout
  return (previous.width != layout.width || previous.height != layout.height,
    { canvas with layout, frame := canvas.frame.resize layout })

def setDisplaySize (canvas : Canvas) (width height : Int) : Canvas :=
  { canvas with
    settings := { canvas.settings with displayWidth := width, displayHeight := height } }

def setFullscreen (canvas : Canvas) (fullscreen : Bool) : Canvas :=
  { canvas with settings := { canvas.settings with fullscreen } }

/-- Counts for the next layout. -/
def setVirtualSize (canvas : Canvas) (width height : Int) : Canvas :=
  { canvas with
    settings := { canvas.settings with virtualWidth := width, virtualHeight := height } }

/-- Counts for the next layout. -/
def setScale (canvas : Canvas) (scaleToFit keepAspectRatio : Bool) (scaleRatio : Int) :
    Except Error Canvas := do
  validateScaleRatio scaleRatio
  return { canvas with
    settings := { canvas.settings with scaleToFit, keepAspectRatio, scaleRatio } }

def setFilter (canvas : Canvas) (filter : Bool) : Canvas :=
  { canvas with settings := { canvas.settings with filter } }

def setTouchInput (canvas : Canvas) (touchInput : Bool) : Canvas :=
  { canvas with settings := { canvas.settings with touchInput } }

def setHardwareAcceleration (canvas : Canvas) (enabled parallelRedraw : Bool) : Canvas :=
  { canvas with
    settings := { canvas.settings with hardwareAcceleration := enabled, parallelRedraw } }

def setBackground (canvas : Canvas) (rgb : UInt32) : Canvas :=
  { canvas with settings := { canvas.settings with background := Settings.solid rgb } }

/-- The new limit is for those who come from now on; who waits keeps its slot. -/
def setFpsLimit (canvas : Canvas) (fpsLimit : Nat) : Canvas :=
  { canvas with limiter := { canvas.limiter with fpsLimit } }

/-- Keeps account of the game keys that are held. -/
def recordKey (canvas : Canvas) (action : KeyAction) (code : Int) : Canvas :=
  let keys := HeldKeys.ofKey code
  { canvas with
    held := match action with
      | .pressed => canvas.held.union keys
      | .repeated => canvas.held.union keys
      | .released => canvas.held.diff keys }

variable {Work : Type}

/-- The event of a handset key, under the code that the keyboard layout gives it. -/
def keyEvents (canvas : Canvas) (action : KeyAction) (code : Int) : List (EventKind Work) :=
  if !(HeldKeys.ofKey code).isEmpty && canvas.suppressGameKeys then []
  else [.key action (canvas.keyLayout.convert code)]

/-- The event of a pointer, where it is on the virtual screen. Only the first pointer counts. -/
def pointerEvents (canvas : Canvas) (action : PointerAction) (pointer : Int) (x y : Single) :
    List (EventKind Work) :=
  if pointer ≠ 0 ∨ canvas.settings.touchInput = false then []
  else
    let (x, y) := canvas.layout.toVirtual x y
    [.pointer action pointer x y]

/-- Composes the frame that is shown. -/
def compose (canvas : Canvas) (now : Nat) : Except Fault (Option Error × Canvas) := do
  let (refusal, frame) ← canvas.frame.compose canvas.layout canvas.settings now
  return (refusal, { canvas with frame })

def snapshot (canvas : Canvas) : Except Fault Image :=
  canvas.frame.snapshot canvas.layout canvas.settings.filter

/-- What an application may ask about its canvas. -/
structure State where
  layout : ScreenLayout
  shown : Bool
  fullscreen : Bool
  hardwareAccelerated : Bool
  pointerEvents : Bool
  pointerMotionEvents : Bool
  repeatEvents : Bool
  doubleBuffered : Bool
  fpsLimit : Nat
  keyLayout : KeyLayout
  held : HeldKeys
  deriving DecidableEq, Repr

/-- Keys repeat on every canvas, and every canvas is double buffered. -/
def state (canvas : Canvas) : State where
  layout := canvas.layout
  shown := canvas.shown
  fullscreen := canvas.settings.fullscreen
  hardwareAccelerated := canvas.settings.hardwareAcceleration
  pointerEvents := canvas.settings.touchInput
  pointerMotionEvents := canvas.settings.touchInput
  repeatEvents := true
  doubleBuffered := true
  fpsLimit := canvas.limiter.fpsLimit
  keyLayout := canvas.keyLayout
  held := canvas.held

/-- The canvas in a line of text. -/
def debugText (canvas : Canvas) : String :=
  let l := canvas.layout
  let p := l.placement
  let shown := if canvas.shown then "true" else "false"
  let place := s!"Rect \x7b x: {p.x}, y: {p.y}, width: {p.width}, height: {p.height} \x7d"
  let sides := s!"display_width: {l.displayWidth}, display_height: {l.displayHeight}, " ++
    s!"width: {l.width}, height: {l.height}, max_height: {l.maxHeight}"
  s!"Canvas \x7b layout: ScreenLayout \x7b {sides}, placement: {place} \x7d, shown: {shown}, .. \x7d"

end Canvas

end Handset
