import Handset.Session.Paint

/-! Game canvases: a back buffer that the application draws into whenever it likes, and then pushes to
the display. -/

namespace Handset.Stage

def setBackBuffer (image : Image) : Act Unit :=
  modify fun s => { s with stage := { s.stage with backBuffer := image } }

/-- Wraps the canvas. The back buffer takes its size, and game keys may be kept from being posted.
Only the first game canvas stays. -/
def createGame (suppressKeys : Bool) : Act Image := do
  let l := (← theCanvas).layout
  let buffer := (← get).stage.backBuffer
  if !Frame.fits buffer l.width l.height then
    setBackBuffer (.reallocate (some buffer) l.width l.height)
  modifyCanvas fun canvas => { canvas with suppressGameKeys := suppressKeys }
  modify fun s => { s with stage := { s.stage with
    staging := s.stage.staging <|> some (.blank l.width l.height) } }
  return (← get).stage.backBuffer

def drawGame (drawings : List Drawing) : Act (List DrawingAnswer) := do
  let (answers, g) := (Graphics.on (← get).stage.backBuffer).drawAll drawings
  setBackBuffer g.target
  return answers

/-- Pushes the back buffer to the display, by way of a copy of its own. -/
def flushGame : Act Unit := do
  let stage := (← get).stage
  match stage.staging with
  | none => return
  | some staging =>
    let buffer := stage.backBuffer
    let staging := if Frame.fits staging buffer.width buffer.height then buffer.copyTo staging
      else buffer
    modify fun s => { s with stage := { s.stage with staging := some staging } }
    flushBuffer staging

/-- Drawings on an image of its own, and the back buffer over them. -/
def paintGame (image : Image) (drawings : List Drawing) : Act Image := do
  let (_, g) := (Graphics.on image).drawAll drawings
  let (answer, g) := g.draw (.drawImage (← get).stage.backBuffer 0 0)
  match answer with
  | .ok _ => return g.target
  | .error fault => throw fault

end Handset.Stage
