import Handset.Geometry.Rect

/-! Pixel images: rows of colours, each with its alpha, red, green and blue in eight bits. An image
has at least one pixel, and exactly as many as its sides ask for. The place of a pixel is computed
in 32 bits, so that a large image has pixels which cannot be read or set one by one; rows are copied
without that limit. -/

namespace Handset

def opaqueWhite : UInt32 := 0xFFFFFFFF

structure Image where
  width : Nat
  height : Nat
  pixels : Array UInt32
  width_pos : 0 < width
  height_pos : 0 < height
  size_eq : pixels.size = width * height
  deriving DecidableEq

namespace Image

/-- An image of one colour. A side that is not positive becomes one pixel. -/
def filled (width height : Int) (color : UInt32) : Image where
  width := (max width 1).toNat
  height := (max height 1).toNat
  pixels := Array.replicate ((max width 1).toNat * (max height 1).toNat) color
  width_pos := by omega
  height_pos := by omega
  size_eq := Array.size_replicate

/-- A white image. -/
def blank (width height : Int) : Image :=
  filled width height opaqueWhite

/-- The whole of an image. -/
def bounds (image : Image) : Rect :=
  ⟨0, 0, image.width, image.height⟩

def Holds (image : Image) (x y : Int) : Prop :=
  0 ≤ x ∧ x < image.width ∧ 0 ≤ y ∧ y < image.height

instance (image : Image) (x y : Int) : Decidable (image.Holds x y) :=
  inferInstanceAs (Decidable (_ ∧ _))

/-- The place of a pixel in the rows, computed in 32 bits; a point outside the image has none. -/
def place? (image : Image) (x y : Int) : Except Fault (Option Nat) :=
  if image.Holds x y then do
    let row ← Checked.mul y image.width
    let i ← Checked.add row x
    return some i.toNat
  else return none

/-- The pixel at a point. -/
def read (image : Image) (x y : Int) : Except Fault (Option UInt32) := do
  return (← image.place? x y).bind fun i => image.pixels[i]?

/-- Changes the pixel at a place in the rows. -/
def put (image : Image) (i : Nat) (color : UInt32) : Image :=
  { image with
    pixels := image.pixels.setIfInBounds i color
    size_eq := by simpa using image.size_eq }

/-- The place of a pixel in the rows, as exact arithmetic sees it. -/
def index (image : Image) (x y : Int) : Nat :=
  (y * image.width + x).toNat

/-- The pixel at a point, wherever it has its place. -/
def pixel? (image : Image) (x y : Int) : Option UInt32 :=
  if image.Holds x y then image.pixels[image.index x y]? else none

/-- Sets a pixel, wherever it has its place; a point outside the image changes nothing. -/
def set (image : Image) (x y : Int) (color : UInt32) : Image :=
  if image.Holds x y then image.put (image.index x y) color else image

def fill (image : Image) (color : UInt32) : Image where
  width := image.width
  height := image.height
  pixels := Array.replicate image.pixels.size color
  width_pos := image.width_pos
  height_pos := image.height_pos
  size_eq := by simpa using image.size_eq

@[simp] theorem width_set (image : Image) (x y : Int) (color : UInt32) :
    (image.set x y color).width = image.width := by
  unfold set
  split <;> rfl

@[simp] theorem height_set (image : Image) (x y : Int) (color : UInt32) :
    (image.set x y color).height = image.height := by
  unfold set
  split <;> rfl

/-- Sets `count` pixels of a row, from `x` on, to the colours that `color` gives. -/
def setRow (color : Int → UInt32) (y : Int) : Nat → Int → Image → Image
  | 0, _, image => image
  | count + 1, x, image => setRow color y count (x + 1) (image.set x y (color x))

/-- Sets `count` rows, from `y` on, between `x` and `x + width`. -/
def setRows (color : Int → Int → UInt32) (x : Int) (width : Nat) : Nat → Int → Image → Image
  | 0, _, image => image
  | count + 1, y, image =>
    setRows color x width count (y + 1) (setRow (color y) y width x image)

/-- Sets every pixel of an area; `color` takes the row first. -/
def setArea (image : Image) (area : Rect) (color : Int → Int → UInt32) : Image :=
  setRows color area.x area.width.toNat area.height.toNat area.y image

/-- Copies the part of an image that another has too into that other image. -/
def copyTo (image target : Image) : Image :=
  if h : image.width = target.width ∧ image.height = target.height then
    { target with
      pixels := image.pixels
      size_eq := by rw [image.size_eq, h.1, h.2] }
  else
    target.setArea ⟨0, 0, min image.width target.width, min image.height target.height⟩
      fun y x => (image.pixel? x y).getD 0

/-- The same number of pixels, or another, all of one colour. Storage of the right size is used
again. -/
def refill (pixels : Array UInt32) (count : Nat) (color : UInt32) : Array UInt32 :=
  if pixels.size = count then pixels.map fun _ => color else Array.replicate count color

theorem refill_eq (pixels : Array UInt32) (count : Nat) (color : UInt32) :
    refill pixels count color = Array.replicate count color := by
  unfold refill
  split
  · subst count
    exact Array.map_const ..
  · rfl

/-- A white image of another size, in the storage of this one where that fits. -/
def resized (image : Image) (width height : Int) : Image where
  width := (max width 1).toNat
  height := (max height 1).toNat
  pixels := refill image.pixels ((max width 1).toNat * (max height 1).toNat) opaqueWhite
  width_pos := by omega
  height_pos := by omega
  size_eq := by rw [refill_eq, Array.size_replicate]

/-- A white image in the storage of a previous one, if there is one. -/
def reallocate (previous : Option Image) (width height : Int) : Image :=
  match previous with
  | some image => image.resized width height
  | none => blank width height

end Image

end Handset
