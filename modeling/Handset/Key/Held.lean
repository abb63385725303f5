import Handset.Key

/-! The game keys that are held down, a bit for each game action. -/

namespace Handset

/-- The game action of a standard key, before a vendor's codes take its place. -/
def GameAction.ofKey? (code : Int) : Option GameAction :=
  if code = Key.left ∨ code = Key.num4 then some .left
  else if code = Key.up ∨ code = Key.num2 then some .up
  else if code = Key.right ∨ code = Key.num6 then some .right
  else if code = Key.down ∨ code = Key.num8 then some .down
  else if code = Key.fire ∨ code = Key.num5 then some .fire
  else if code = Key.num7 then some .gameA
  else if code = Key.num9 then some .gameB
  else if code = Key.star then some .gameC
  else if code = Key.pound then some .gameD
  else none

/-- The bit at the place of the action's code. -/
def GameAction.bit (action : GameAction) : UInt32 :=
  1 <<< UInt32.ofNat action.code.toNat

/-- The name of the action's flag. -/
def GameAction.flag : GameAction → String
  | .up => "UP_PRESSED"
  | .left => "LEFT_PRESSED"
  | .right => "RIGHT_PRESSED"
  | .down => "DOWN_PRESSED"
  | .fire => "FIRE_PRESSED"
  | .gameA => "GAME_A_PRESSED"
  | .gameB => "GAME_B_PRESSED"
  | .gameC => "GAME_C_PRESSED"
  | .gameD => "GAME_D_PRESSED"

structure HeldKeys where
  bits : UInt32 := 0
  deriving DecidableEq, Repr

namespace HeldKeys

/-- The bit of the key, or no bit. -/
def ofKey (code : Int) : HeldKeys :=
  match GameAction.ofKey? code with
  | some action => ⟨action.bit⟩
  | none => {}

def isEmpty (keys : HeldKeys) : Bool :=
  keys.bits == 0

def union (keys more : HeldKeys) : HeldKeys :=
  ⟨keys.bits ||| more.bits⟩

def diff (keys less : HeldKeys) : HeldKeys :=
  ⟨keys.bits &&& ~~~less.bits⟩

def contains (keys : HeldKeys) (action : GameAction) : Bool :=
  keys.bits &&& action.bit != 0

/-- The names of the keys that are held, in the order of their bits. -/
def text (keys : HeldKeys) : String :=
  " | ".intercalate ((GameAction.all.filter keys.contains).map (·.flag))

end HeldKeys

end Handset
