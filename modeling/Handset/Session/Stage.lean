import Handset.Session.Engine

/-! The stage of a canvas session: the canvas with its application, and the actions on them that
every part of the canvas shares. -/

namespace Handset

/-- A scripted application records its calls and follows the rules; a bare one does so for its paint
only; a back buffer just shows itself. -/
inductive App
  | scripted
  | bare
  | backBuffer
  deriving DecidableEq, Repr

/-- `staging` is the image that a game canvas hands over, once there is one. -/
structure Stage where
  canvas : Canvas
  app : App
  backBuffer : Image
  staging : Option Image := none

namespace Stage

abbrev Act := Handset.Act Stage

open Handset.Act (note log post postAll attempt runBody runRule)

def theCanvas : Act Canvas :=
  return (← get).stage.canvas

def setCanvas (canvas : Canvas) : Act Unit :=
  modify fun s => { s with stage := { s.stage with canvas } }

def modifyCanvas (f : Canvas → Canvas) : Act Unit :=
  modify fun s => { s with stage := { s.stage with canvas := f s.stage.canvas } }

/-- Calls the application: the call is recorded, and a rule may follow it. Such a call has no
result, so that an error has nowhere to go. -/
def call (runner : Runner Stage) (callback : Callback) (entry : Note) (code : Option Int) :
    Act Unit := do
  if (← get).stage.app = .scripted then
    note entry
    let _ ← runRule runner (.callback callback) code

def tellOverlay (overlay : Overlay) (event : OverlayCall) : Act Unit :=
  (overlay.traced event).forM fun event => note (.overlay event)

/-- Waits for the next free slot of the frame limit. -/
def throttle : Act Unit :=
  modify fun s =>
    let (clock, limiter) := s.stage.canvas.limiter.throttle s.clock
    { s with clock, stage := { s.stage with canvas := { s.stage.canvas with limiter } } }

def repaint : Act Unit := do
  throttle
  let _ ← post .paint

/-- Computes the layout anew and tells the overlay of it. A thread inside a paint holds the images,
which cannot change before it is done. -/
def updateSize : Act Bool := do
  if (← get).painting then return false
  let (changed, canvas) ← (← theCanvas).updateSize
  setCanvas canvas
  match canvas.overlay with
  | some overlay => tellOverlay overlay (.resize canvas.layout.screen canvas.layout.placement)
  | none => pure ()
  return changed

/-- The display has a new size. The application hears of the first size in any case. -/
def displayResized (runner : Runner Stage) (width height : Int) : Act Unit := do
  modifyCanvas (·.setDisplaySize width height)
  let changed ← updateSize
  let canvas ← theCanvas
  setCanvas { canvas with sizeReported := true }
  if changed || !canvas.sizeReported then
    let l := canvas.layout
    call runner .sizeChanged (.sizeChanged l.width l.height) none

/-- Takes effect at once; from inside a paint it does so in the order of the queue. -/
def setFullscreen (fullscreen : Bool) : Act Unit := do
  let canvas ← theCanvas
  if canvas.settings.fullscreen = fullscreen then return
  setCanvas (canvas.setFullscreen fullscreen)
  if (← get).painting then
    let _ ← post (.displayResized canvas.layout.displayWidth canvas.layout.displayHeight)
  else
    let _ ← updateSize
    let l := (← theCanvas).layout
    let _ ← post (.sizeChanged l.width l.height)

/-- The display has a new size, and is to be painted after it was given one. -/
def surfaceChanged (width height : Int) : Act Unit :=
  postAll [.displayResized width height, .paint]

/-- Tells a new overlay where things are before it is installed. -/
def setOverlay (overlay : Option Overlay) : Act Unit := do
  match overlay with
  | some overlay =>
    let l := (← theCanvas).layout
    tellOverlay overlay (.resize l.screen l.placement)
  | none => pure ()
  modifyCanvas fun canvas => { canvas with overlay }

end Stage

end Handset
