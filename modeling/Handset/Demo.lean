import Handset.Session.Handler

/-! A demonstration: a box bounces around the canvas of a handset, one step a frame, and changes its
colour when the fire key is pressed halfway. -/

namespace Handset.Demo

def displayWidth : Int := 240

def displayHeight : Int := 320

def frames : Nat := 120

def boxSize : Int := 16

/-- A place on one axis, and how far it moves in a frame. -/
structure Mover where
  position : Int := 0
  velocity : Int
  deriving DecidableEq, Repr

/-- Moves on between zero and `limit`, turning around at either. -/
def Mover.advance (mover : Mover) (limit : Int) : Mover :=
  let next := mover.position + mover.velocity
  if next < 0 ∨ limit < next then ⟨clamp 0 (max limit 0) next, -mover.velocity⟩
  else { mover with position := next }

theorem Mover.advance_mem (mover : Mover) (limit : Int) :
    0 ≤ (mover.advance limit).position ∧ (mover.advance limit).position ≤ max limit 0 := by
  simp only [advance, clamp]
  split <;> simp only <;> omega

structure Box where
  x : Mover := { velocity := 3 }
  y : Mover := { velocity := 2 }
  color : UInt32 := 0xFF4040
  deriving DecidableEq, Repr

namespace Box

def advance (box : Box) (width height : Int) : Box :=
  { box with x := box.x.advance (width - boxSize), y := box.y.advance (height - boxSize) }

def changeColor (box : Box) : Box :=
  { box with color := box.color ^^^ 0xFFFFFF }

/-- The box on a black ground. -/
def paint (box : Box) : List PaintItem :=
  [ .drawing (.setColor 0x000000), .drawing .fillAll, .drawing (.setColor box.color),
    .drawing (.fillRect ⟨box.x.position, box.y.position, boxSize, boxSize⟩) ]

end Box

/-- The canvas appears and gets its size; the box is painted for the first time. -/
def opening (box : Box) : List Step :=
  [ .setPaint box.paint, .ask .surfaceCreated,
    .ask (.surfaceChanged displayWidth displayHeight), .drain 100 ]

def pressFire : List Step :=
  [.ask (.key .pressed Key.fire), .ask (.key .released Key.fire), .drain 100]

/-- A repaint that is run at once. -/
def frame (box : Box) : List Step :=
  [.setPaint box.paint, .ask (.repaint 1), .ask .serviceRepaints]

/-- The frames that are left, on a canvas of the given size. -/
def steps (width height : Int) : Nat → Box → List Step
  | 0, _ => [.ask .presented]
  | left + 1, box =>
    let box := box.advance width height
    if left + 1 = frames / 2 then
      pressFire ++ frame box.changeColor ++ steps width height left box.changeColor
    else frame box ++ steps width height left box

/-- How often the application painted, and how many frames the display showed. -/
structure Report where
  paints : Nat := 0
  shown : Nat := 0
  deriving DecidableEq, Repr

def Report.line (report : Report) : String :=
  s!"Demo finished: {report.paints} paints, {report.shown} frames presented"

def isPaint : Note → Bool
  | .paint .. => true
  | _ => false

def Report.add (report : Report) : StepAnswer → Report
  | .mk result notes _ _ =>
    let paints := report.paints + notes.countP isPaint
    match result with
    | .ok (.presented _ shown) => { paints, shown }
    | _ => { report with paints }

/-- Runs the demonstration on a headless display. -/
def run (config : Config) : Except Fault Report := do
  let canvas ← Canvas.create config .headless displayWidth displayHeight 0
  let stage : Stage := { canvas, app := .scripted, backBuffer := .blank 1 1 }
  let l := canvas.layout
  let box := ({} : Box).advance l.width l.height
  let answers := Host.stage.run { stage } (opening box ++ steps l.width l.height frames box)
  return answers.foldl Report.add {}

end Handset.Demo
