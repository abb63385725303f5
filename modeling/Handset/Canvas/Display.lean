import Handset.Error
import Handset.Image

/-! The display that finished frames are handed to. It counts the frames it showed and keeps the
last of them. -/

namespace Handset

/-- A headless display shows every frame, or none when it is made to fail. One of a schedule
refuses the frames whose number is in a list. -/
inductive DisplayKind
  | headless
  | failing
  | scheduled (refused : List Nat)
  deriving DecidableEq, Repr

structure Display where
  kind : DisplayKind
  attempts : Nat := 0
  shown : Nat := 0
  lastFrame : Option Image := none

namespace Display

/-- The name of the display in the log. -/
def name (display : Display) : String :=
  match display.kind with
  | .headless => "headless"
  | .failing => "headless"
  | .scheduled _ => "display"

/-- Why the next frame will be refused, if it will. -/
def refusal? (display : Display) : Option Error :=
  match display.kind with
  | .headless => none
  | .failing => some (.presentFailed "headless driver configured to fail")
  | .scheduled refused =>
    let number := display.attempts + 1
    if refused.contains number then some (.presentFailed s!"frame {number}") else none

/-- The frame in the storage of the last one, where it has the same sides. -/
def keep (display : Display) (frame : Image) : Image :=
  match display.lastFrame with
  | some last =>
    if last.width = frame.width ∧ last.height = frame.height then frame.copyTo last else frame
  | none => frame

def present (display : Display) (frame : Image) : Except Error Unit × Display :=
  let attempts := display.attempts + 1
  match display.refusal? with
  | some error => (.error error, { display with attempts })
  | none =>
    (.ok (), { display with
      attempts
      shown := display.shown + 1
      lastFrame := some (display.keep frame) })

end Display

end Handset
