import Handset.Graphics.Sampling

/-! Drawing on an image. A pen holds what drawing depends on besides the image: colour, font,
stroke, clip and origin. A drawing that faults keeps what it did before. -/

namespace Handset

inductive Stroke
  | solid | dotted
  deriving DecidableEq, Repr

structure Font where
  face : Int := 0
  style : Int := 0
  size : Int := 0
  deriving DecidableEq, Repr

/-- The clip is kept in the coordinates of the image, wherever the origin is. -/
structure Pen where
  color : UInt32 := 0xFF000000
  font : Font := {}
  stroke : Stroke := .solid
  clip : Rect
  originX : Int := 0
  originY : Int := 0
  deriving DecidableEq, Repr

structure Graphics where
  pen : Pen
  target : Image

abbrev Draw := ExceptT Fault (StateM Graphics)

namespace Graphics

/-- Black, the default font, a solid stroke, the whole image as clip and its corner as origin. -/
def freshPen (image : Image) : Pen :=
  { clip := image.bounds }

def on (image : Image) : Graphics :=
  ⟨freshPen image, image⟩

/-- The colour without its alpha: drawing is always opaque. -/
def color (g : Graphics) : UInt32 :=
  g.pen.color &&& 0xFFFFFF

end Graphics

/-- The clip as seen from the origin. -/
def Pen.visibleClip (pen : Pen) : Except Fault Rect := do
  return ⟨← Checked.sub pen.clip.x pen.originX, ← Checked.sub pen.clip.y pen.originY, pen.clip.width,
    pen.clip.height⟩

/-- Where a rectangle given from the origin lies on the image. -/
def Pen.place (pen : Pen) (r : Rect) : Except Fault Rect :=
  r.shift pen.originX pen.originY

namespace Draw

def pen : Draw Pen :=
  return (← get).pen

def setPen (pen : Pen) : Draw Unit :=
  modify fun g => { g with pen }

def setColor (rgb : UInt32) : Draw Unit := do
  setPen { ← pen with color := 0xFF000000 ||| (rgb &&& 0xFFFFFF) }

def setColorRgb (red green blue : UInt8) : Draw Unit :=
  setColor ((red.toUInt32 <<< 16) ||| (green.toUInt32 <<< 8) ||| blue.toUInt32)

def setFont (font : Font) : Draw Unit := do
  setPen { ← pen with font }

def setStroke (stroke : Stroke) : Draw Unit := do
  setPen { ← pen with stroke }

/-- The origin moves along one axis and then along the other. -/
def moveOrigin (dx dy : Int) : Draw Unit := do
  let p ← pen
  let originX ← Checked.add p.originX dx
  setPen { p with originX }
  let originY ← Checked.add p.originY dy
  setPen { p with originX, originY }

def reset : Draw Unit := do
  setPen (Graphics.freshPen (← get).target)

/-- The clip becomes the rectangle, cut to the image. -/
def setClip (r : Rect) : Draw Unit := do
  let p ← pen
  let clip ← (← p.place r).intersection (← get).target.bounds
  setPen { p with clip }

/-- The clip is cut to the rectangle. -/
def clipRect (r : Rect) : Draw Unit := do
  let p ← pen
  let clip ← p.clip.intersection (← p.place r)
  setPen { p with clip }

/-- Fills the image, whatever the clip. -/
def clear (color : UInt32) : Draw Unit :=
  modify fun g => { g with target := g.target.fill color }

/-- Sets a pixel of the image; a point outside it changes nothing. -/
def setPixel (x y : Int) (color : UInt32) : Draw Unit := do
  match ← (← get).target.place? x y with
  | some i => modify fun g => { g with target := g.target.put i color }
  | none => return

/-- Draws at `count` positions in turn, from `start` on. -/
def forEach (drawing : Int → Draw Unit) : Nat → Int → Draw Unit
  | 0, _ => return
  | count + 1, start => do
    drawing start
    forEach drawing count (start + 1)

/-- Sets the pixels of an area, row by row, each to a colour that is computed before it. -/
def paintArea (area : Rect) (color : Int → Int → Except Fault UInt32) : Draw Unit :=
  forEach (fun y => forEach (fun x => do setPixel x y (← color x y)) area.width.toNat area.x)
    area.height.toNat area.y

def fillRect (r : Rect) : Draw Unit := do
  let p ← pen
  let area ← (← p.place r).intersection p.clip
  paintArea area fun _ _ => .ok p.color

def fillAll : Draw Unit := do
  fillRect (← get).target.bounds

/-- Sets a pixel of the pen's colour where the clip lets it. -/
def plot (x y : Int) : Draw Unit := do
  let p ← pen
  if ← p.clip.contains x y then setPixel x y p.color

/-- A line on its way: the point it is at, the point where it ends, the way there in each axis, and
the error of the next step. -/
structure Line where
  x : Int
  y : Int
  endX : Int
  endY : Int
  dx : Int
  dy : Int
  stepX : Int
  stepY : Int
  error : Int
  deriving DecidableEq, Repr

def Line.start (x y endX endY : Int) : Except Fault Line := do
  let dx ← Checked.abs (← Checked.sub endX x)
  let dy ← Checked.neg (← Checked.abs (← Checked.sub endY y))
  let stepX := if x < endX then 1 else -1
  let stepY := if y < endY then 1 else -1
  return { x, y, endX, endY, dx, dy, stepX, stepY, error := ← Checked.add dx dy }

def Line.atEnd (line : Line) : Bool :=
  line.x == line.endX && line.y == line.endY

/-- The next point of the line, one step on in one axis or both. -/
def Line.step (line : Line) : Except Fault Line := do
  let twice ← Checked.mul 2 line.error
  let line ← if line.dy ≤ twice then do
      let error ← Checked.add line.error line.dy
      let x ← Checked.add line.x line.stepX
      pure { line with x, error }
    else pure line
  if twice ≤ line.dx then do
    let error ← Checked.add line.error line.dx
    let y ← Checked.add line.y line.stepY
    return { line with y, error }
  else return line

/-- Plots the points of a line up to its end; a dotted stroke leaves out every second. -/
def follow (dotted : Bool) : Nat → Nat → Line → Draw Unit
  | 0, _, _ => return
  | fuel + 1, index, line => do
    if !dotted || index % 2 == 0 then plot line.x line.y
    if line.atEnd then return
    follow dotted fuel (index + 1) (← line.step)

/-- A line with both its ends. Each step brings it nearer to its end, so that the sum of its sides
bounds their number. -/
def drawLine (x₁ y₁ x₂ y₂ : Int) : Draw Unit := do
  let p ← pen
  let x₁ ← Checked.add x₁ p.originX
  let y₁ ← Checked.add y₁ p.originY
  let x₂ ← Checked.add x₂ p.originX
  let y₂ ← Checked.add y₂ p.originY
  let line ← Line.start x₁ y₁ x₂ y₂
  follow (p.stroke == .dotted) (line.dx - line.dy + 1).toNat 0 line

/-- The four sides of a rectangle, which is one pixel larger than its size says. -/
def drawRect (r : Rect) : Draw Unit := do
  if r.width < 0 ∨ r.height < 0 then return
  drawLine r.x r.y (← r.right) r.y
  let bottom ← r.bottom
  drawLine r.x bottom (← r.right) bottom
  drawLine r.x r.y r.x (← r.bottom)
  let right ← r.right
  drawLine right r.y right (← r.bottom)

/-- Stretches an image over a rectangle. -/
def drawImageScaled (image : Image) (r : Rect) (filter : Bool) : Draw Unit := do
  if r.isEmpty then return
  let p ← pen
  let place ← p.place r
  let area ← place.intersection p.clip
  let scaleX : Single := .ofInt image.width / .ofInt place.width
  let scaleY : Single := .ofInt image.height / .ofInt place.height
  paintArea area fun x y =>
    image.sample filter (.ofInt (x - place.x) * scaleX) (.ofInt (y - place.y) * scaleY)

/-- An image at its own size. -/
def drawImage (image : Image) (x y : Int) : Draw Unit :=
  drawImageScaled image ⟨x, y, image.width, image.height⟩ false

end Draw

/-- What an application may ask of the graphics it is given. -/
inductive Drawing
  | setColor (rgb : UInt32)
  | setColorRgb (red green blue : UInt8)
  | setFont (font : Font)
  | setStroke (stroke : Stroke)
  | moveOrigin (dx dy : Int)
  | setClip (r : Rect)
  | clipRect (r : Rect)
  | fillRect (r : Rect)
  | drawRect (r : Rect)
  | clear (color : UInt32)
  | fillAll
  | drawLine (x₁ y₁ x₂ y₂ : Int)
  | drawImage (image : Image) (x y : Int)
  | drawImageScaled (image : Image) (r : Rect) (filter : Bool)
  | reset
  | report

def Drawing.perform : Drawing → Draw Unit
  | .setColor rgb => Draw.setColor rgb
  | .setColorRgb red green blue => Draw.setColorRgb red green blue
  | .setFont font => Draw.setFont font
  | .setStroke stroke => Draw.setStroke stroke
  | .moveOrigin dx dy => Draw.moveOrigin dx dy
  | .setClip r => Draw.setClip r
  | .clipRect r => Draw.clipRect r
  | .fillRect r => Draw.fillRect r
  | .drawRect r => Draw.drawRect r
  | .clear color => Draw.clear color
  | .fillAll => Draw.fillAll
  | .drawLine x₁ y₁ x₂ y₂ => Draw.drawLine x₁ y₁ x₂ y₂
  | .drawImage image x y => Draw.drawImage image x y
  | .drawImageScaled image r filter => Draw.drawImageScaled image r filter
  | .reset => Draw.reset
  | .report => return

/-- The graphics as an application can ask about them. -/
structure GraphicsState where
  width : Nat
  height : Nat
  pen : Pen
  deriving DecidableEq, Repr

def Graphics.state (g : Graphics) : GraphicsState :=
  ⟨g.target.width, g.target.height, g.pen⟩

/-- The state after a drawing, or its fault. -/
abbrev DrawingAnswer := Except Fault GraphicsState

/-- Performs a drawing and answers with the state after it. -/
def Graphics.draw (g : Graphics) (d : Drawing) : DrawingAnswer × Graphics :=
  match d.perform.run.run g with
  | (.ok (), g) => (.ok g.state, g)
  | (.error fault, g) => (.error fault, g)

/-- Performs drawings in turn, whatever becomes of each. -/
def Graphics.drawAll (g : Graphics) : List Drawing → List DrawingAnswer × Graphics
  | [] => ([], g)
  | d :: rest =>
    let (answer, g) := g.draw d
    let (answers, g) := g.drawAll rest
    (answer :: answers, g)

end Handset
