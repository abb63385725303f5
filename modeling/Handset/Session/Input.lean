import Handset.Session.Stage

/-! Input: keys and pointers of the host on their way to events. The overlay is asked first. -/

namespace Handset.Stage

open Handset.Act (postAll)

/-- A key of the handset. Game keys count as held whether or not they are posted. -/
def postKey (action : KeyAction) (code : Int) : Act Unit := do
  modifyCanvas (·.recordKey action code)
  postAll ((← theCanvas).keyEvents action code)

/-- A key of the host. The answer is whether it is bound. -/
def hostKey (action : KeyAction) (host : Int) : Act Bool := do
  let canvas ← theCanvas
  match canvas.hostKeys.convert? host with
  | none => return false
  | some code =>
    match canvas.overlay with
    | none => postKey action code
    | some overlay =>
      tellOverlay overlay (.key action code)
      if !overlay.consumesKey code then postKey action code
    return true

/-- A pointer on the display. The overlay shows itself while the first pointer is down. -/
def hostPointer (action : PointerAction) (pointer : Int) (x y : Single) : Act Unit := do
  match (← theCanvas).overlay with
  | none => postAll ((← theCanvas).pointerEvents action pointer x y)
  | some overlay =>
    match action with
    | .pressed => if pointer = 0 then tellOverlay overlay .appear
    | .released => if pointer = 0 then tellOverlay overlay .disappear
    | .dragged => pure ()
    tellOverlay overlay (.pointer action pointer x y)
    if !overlay.consumesPointer x then
      postAll ((← theCanvas).pointerEvents action pointer x y)

end Handset.Stage
