import Handset.Floating
import Handset.Image

/-! Colours of an image at points between its pixels. -/

namespace Handset.Image

/-- The pixel that a point lies in; nothing outside the image. -/
def nearestSample (image : Image) (x y : Single) : Except Fault UInt32 := do
  return (← image.read x.truncate y.truncate).getD 0

/-- A channel of a colour, `shift` bits up. -/
def channel (color shift : UInt32) : Single :=
  .ofInt ((color >>> shift) &&& 0xFF).toNat

/-- The value between `low` and `high` at `t`. -/
def blend (low high t : Single) : Single :=
  low + (high - low) * t

/-- The mean of four pixels, channel by channel: between the first two at `tx`, between the others
too, and between both means at `ty`. -/
def mix (p₀₀ p₁₀ p₀₁ p₁₁ : UInt32) (tx ty : Single) : UInt32 :=
  let mixed (shift : UInt32) : UInt32 :=
    let top := blend (channel p₀₀ shift) (channel p₁₀ shift) tx
    let bottom := blend (channel p₀₁ shift) (channel p₁₁ shift) tx
    UInt32.ofNat (clamp 0 255 (blend top bottom ty).round).toNat <<< shift
  mixed 0 ||| mixed 8 ||| mixed 16 ||| mixed 24

/-- Half a pixel before an offset, or zero. -/
def before (offset : Single) : Single :=
  Floating.greater (offset - .nearest false 1 2 0) (.zero false)

/-- The mean of the four pixels around a point, weighted by their distance. -/
def bilinearSample (image : Image) (x y : Single) : Except Fault UInt32 := do
  let fx := before x
  let fy := before y
  let x₀ := fx.truncate
  let y₀ := fy.truncate
  let x₁ := min (← Checked.add x₀ 1) (image.width - 1)
  let y₁ := min (← Checked.add y₀ 1) (image.height - 1)
  let p₀₀ ← image.read x₀ y₀
  let p₁₀ ← image.read x₁ y₀
  let p₀₁ ← image.read x₀ y₁
  let p₁₁ ← image.read x₁ y₁
  return mix (p₀₀.getD 0) (p₁₀.getD 0) (p₀₁.getD 0) (p₁₁.getD 0) (fx - .ofInt x₀) (fy - .ofInt y₀)

def sample (image : Image) (filter : Bool) (x y : Single) : Except Fault UInt32 :=
  if filter then image.bilinearSample x y else image.nearestSample x y

end Handset.Image
