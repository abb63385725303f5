/-! Handset key codes and the game actions they stand for. Digits, `*` and `#` have their character
codes; the other keys are negative. -/

namespace Handset

/-- What a key means to a game, whatever key it is. -/
inductive GameAction
  | up | left | right | down | fire | gameA | gameB | gameC | gameD
  deriving DecidableEq, Repr

namespace GameAction

def all : List GameAction :=
  [up, left, right, down, fire, gameA, gameB, gameC, gameD]

def code : GameAction → Int
  | up => 1
  | left => 2
  | right => 5
  | down => 6
  | fire => 8
  | gameA => 9
  | gameB => 10
  | gameC => 11
  | gameD => 12

def ofCode? (code : Int) : Option GameAction :=
  all.find? (·.code == code)

theorem mem_all (action : GameAction) : action ∈ all := by
  cases action <;> simp [all]

@[simp] theorem ofCode?_code (action : GameAction) : ofCode? action.code = some action := by
  cases action <;> rfl

end GameAction

namespace Key

def pound : Int := 35
def star : Int := 42
def num0 : Int := 48
def num1 : Int := 49
def num2 : Int := 50
def num3 : Int := 51
def num4 : Int := 52
def num5 : Int := 53
def num6 : Int := 54
def num7 : Int := 55
def num8 : Int := 56
def num9 : Int := 57
def up : Int := -1
def down : Int := -2
def left : Int := -3
def right : Int := -4
def fire : Int := -5
def softLeft : Int := -6
def softRight : Int := -7
def clear : Int := -8
def send : Int := -10
def hangUp : Int := -11

end Key

end Handset
