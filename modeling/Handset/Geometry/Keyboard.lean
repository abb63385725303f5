import Handset.Floating

/-! A fixed keyboard drawn below the virtual screen, sized by the width of the display. -/

namespace Handset

/-- `rows` rows of keys. A key is as wide as the display divided by `keyWidthRatio`, and as high as
it is wide divided by `keyHeightRatio`. -/
structure Keyboard where
  rows : Nat := 5
  keyWidthRatio : Single := .ofInt 3
  keyHeightRatio : Single := .ofInt 2
  deriving DecidableEq, Repr

/-- The pixels kept free at the bottom of a display, with one more to part them from the screen. -/
def Keyboard.reservedHeight (keyboard : Keyboard) (displayWidth : Int) : Except Fault Int :=
  let divisor := keyboard.keyWidthRatio * keyboard.keyHeightRatio
  let rows : Single := .ofInt keyboard.rows
  let width : Single := .ofInt displayWidth
  if divisor.atMost (.ofInt 0) then .ok 0
  else Checked.add (rows * (width / divisor)).truncate 1

end Handset
