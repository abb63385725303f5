import Handset.Error
import Handset.Key

/-! Vendor keyboards. Some handsets send codes of their own for arrows, fire and soft keys; a layout
says which code a standard key becomes and what the codes then mean. A layout determines its
tables, so that switching layouts leaves nothing of the last one behind. -/

namespace Handset

/-- A key as an application may ask about it: a known key need not have an action. -/
structure KeyEntry where
  code : Int
  action : Option GameAction
  name : String
  deriving DecidableEq, Repr

inductive KeyLayout
  | standard | siemens | motorola
  deriving DecidableEq, Repr

namespace KeyLayout

def standardKeys : List KeyEntry := [
  ⟨Key.num0, none, "0"⟩, ⟨Key.num1, none, "1"⟩, ⟨Key.num2, some .up, "2"⟩,
  ⟨Key.num3, none, "3"⟩, ⟨Key.num4, some .left, "4"⟩, ⟨Key.num5, some .fire, "5"⟩,
  ⟨Key.num6, some .right, "6"⟩, ⟨Key.num7, some .gameA, "7"⟩, ⟨Key.num8, some .down, "8"⟩,
  ⟨Key.num9, some .gameB, "9"⟩, ⟨Key.star, some .gameC, "ASTERISK"⟩,
  ⟨Key.pound, some .gameD, "POUND"⟩, ⟨Key.up, some .up, "UP"⟩, ⟨Key.down, some .down, "DOWN"⟩,
  ⟨Key.left, some .left, "LEFT"⟩, ⟨Key.right, some .right, "RIGHT"⟩,
  ⟨Key.fire, some .fire, "SELECT"⟩, ⟨Key.softLeft, none, "SOFT1"⟩,
  ⟨Key.softRight, none, "SOFT2"⟩, ⟨Key.clear, none, "CLEAR"⟩, ⟨Key.send, none, "SEND"⟩,
  ⟨Key.hangUp, none, "END"⟩]

/-- The codes a vendor gives a meaning of their own. They hide a standard key of the same code. -/
def vendorKeys : KeyLayout → List KeyEntry
  | standard => []
  | siemens => [
    ⟨-59, some .up, "UP"⟩, ⟨-60, some .down, "DOWN"⟩, ⟨-61, some .left, "LEFT"⟩,
    ⟨-62, some .right, "RIGHT"⟩, ⟨-1, none, "SOFT1"⟩, ⟨-4, none, "SOFT2"⟩]
  | motorola => [
    ⟨-1, some .up, "UP"⟩, ⟨-6, some .down, "DOWN"⟩, ⟨-2, some .left, "LEFT"⟩,
    ⟨-5, some .right, "RIGHT"⟩, ⟨-20, some .fire, "SELECT"⟩, ⟨-21, none, "SOFT1"⟩,
    ⟨-22, none, "SOFT2"⟩]

/-- The code that a standard key sends on the vendor's handset. Other codes stay as they are. -/
def convert (layout : KeyLayout) (code : Int) : Int :=
  match layout with
  | standard => code
  | siemens =>
    if code = Key.left then -61
    else if code = Key.right then -62
    else if code = Key.up then -59
    else if code = Key.down then -60
    else if code = Key.softLeft then -1
    else if code = Key.softRight then -4
    else code
  | motorola =>
    if code = Key.up then -1
    else if code = Key.down then -6
    else if code = Key.left then -2
    else if code = Key.right then -5
    else if code = Key.fire then -20
    else if code = Key.softLeft then -21
    else if code = Key.softRight then -22
    else code

/-- The key with a code, the vendor's before the standard one. -/
def entry? (layout : KeyLayout) (code : Int) : Option KeyEntry :=
  (layout.vendorKeys ++ standardKeys).find? (·.code == code)

def gameAction (layout : KeyLayout) (code : Int) : Except Error (Option GameAction) :=
  match layout.entry? code with
  | some key => .ok key.action
  | none => .error (.unknownKeyCode code)

def keyName (layout : KeyLayout) (code : Int) : Except Error String :=
  match layout.entry? code with
  | some key => .ok key.name
  | none => .error (.unknownKeyCode code)

/-- The key that stands for an action: an arrow or fire key, or a digit, `*` or `#`. -/
def keyFor (layout : KeyLayout) : GameAction → Int
  | .up => layout.convert Key.up
  | .left => layout.convert Key.left
  | .right => layout.convert Key.right
  | .down => layout.convert Key.down
  | .fire => layout.convert Key.fire
  | .gameA => Key.num7
  | .gameB => Key.num9
  | .gameC => Key.star
  | .gameD => Key.pound

def keyCode (layout : KeyLayout) (action : Int) : Except Error Int :=
  match GameAction.ofCode? action with
  | some known => .ok (layout.keyFor known)
  | none => .error (.unknownGameAction action)

end KeyLayout

end Handset
