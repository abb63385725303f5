import Handset.Session.Stage

/-! Painting: the application draws into the offscreen image, the drawing is copied, and the copy is
composed for the display. A thread inside the application's paint can change nothing that is
shown. -/

namespace Handset.Stage

open Handset.Act (note log post attempt runBody runRule)

/-- Draws with a pen on the offscreen image and gives the pen back. -/
def draw (pen : Pen) (drawing : Drawing) : Act Pen := do
  let canvas ← theCanvas
  let (answer, g) := (Graphics.mk pen canvas.frame.offscreen).draw drawing
  setCanvas { canvas with frame := { canvas.frame with offscreen := g.target } }
  match answer, drawing with
  | .ok state, .report => note (.graphics state)
  | .ok _, _ => pure ()
  | .error fault, _ => throw fault
  return g.pen

/-- Draws the back buffer at the origin. -/
def drawBackBuffer (pen : Pen) : Act Pen := do
  draw pen (.drawImage (← get).stage.backBuffer 0 0)

/-- The items of a paint script in turn, up to the first that fails. -/
def paintItems (runner : Runner Stage) (pen : Pen) : List PaintItem → Act (Option Failure)
  | [] => return none
  | .drawing drawing :: rest => do paintItems runner (← draw pen drawing) rest
  | .backBuffer :: rest => do paintItems runner (← drawBackBuffer pen) rest
  | .body body :: rest => do
    match ← runBody runner body with
    | some failure => return some failure
    | none => paintItems runner pen rest

/-- The application's paint, on a fresh pen. -/
def paintApp (runner : Runner Stage) : Act (Option Failure) := do
  let canvas ← theCanvas
  let pen := Graphics.freshPen canvas.frame.offscreen
  if (← get).stage.app = .backBuffer then
    let _ ← drawBackBuffer pen
    return none
  Act.holdPending runner
  note (.paint canvas.layout.width canvas.layout.height)
  match ← paintItems runner pen (← get).script with
  | some failure => return some failure
  | none => runRule runner (.callback .paint) none

/-- Composes what is shown for the display. A refused frame is logged and dropped. -/
def composeFrame : Act Unit := do
  let session ← get
  let (refusal, canvas) ← session.stage.canvas.compose session.clock
  setCanvas canvas
  match refusal with
  | some error => log (.presentFailed canvas.frame.display.name error)
  | none => return

def composeUnlessParallel : Act Unit := do
  if !(← theCanvas).settings.parallelRedraw then composeFrame

/-- One paint cycle. A hidden canvas is not painted, and a drawing that failed is not shown. A thread
inside a paint holds the images, so that there is no second paint within it. -/
def paintCycle (runner : Runner Stage) : Act Unit := do
  let session ← get
  if !session.stage.canvas.shown || session.painting then return
  set { session with painting := true }
  let result ← attempt (paintApp runner)
  modify fun s => { s with painting := session.painting }
  match result with
  | .ok none =>
    modifyCanvas fun canvas => { canvas with frame := canvas.frame.finish }
    composeUnlessParallel
  | .ok (some failure) => log (.paintFailed failure)
  | .error fault => log (.paintFaulted fault)

/-- Composes again what is shown, for a host that does so on its own. -/
def compose : Act Unit := do
  if !(← get).painting then composeFrame

/-- Shows an image instead of a painted frame. -/
def flushBuffer (image : Image) : Act Unit := do
  if (← get).painting then log .flushIgnored
  else
    throttle
    modifyCanvas fun canvas => { canvas with frame := canvas.frame.submit image }
    composeUnlessParallel

/-- Runs a repaint that is queued here and now. -/
def serviceRepaints (runner : Runner Stage) : Act Unit := do
  let session ← get
  let (outcome, queue) := session.queue.flush .paint session.painting session.thread
  set { session with queue }
  if outcome = .take then
    let result ← attempt (paintCycle runner)
    Act.modifyQueue (·.finishInline .paint session.thread)
    match result with
    | .ok () => return
    | .error fault => throw fault

/-- What is shown at its size on the display; nothing from inside a paint. -/
def snapshot : Act (Option Image) := do
  if (← get).painting then return none
  return some (← (← theCanvas).snapshot)

def presentedFrames : Act Nat := do
  if (← get).painting then return 0
  return (← theCanvas).frame.presented

def fps : Act (Option Nat) := do
  if (← get).painting then return none
  return (← theCanvas).frame.fps.map (·.rate)

end Handset.Stage
