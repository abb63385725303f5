import Handset.Checked

/-! Binary floating-point numbers of a fixed format. Each operation takes the exact result as a
ratio of integers and rounds it once, to the nearest number of the format, a tie going to the even
neighbour. -/

namespace Handset

/-- A format keeps `precision` significant bits, the last of them worth at least `2 ^ least` and at
most `2 ^ greatest`. -/
structure Format where
  precision : Nat
  least : Int
  greatest : Int
  deriving DecidableEq, Repr

def Format.single : Format := ⟨24, -149, 104⟩

def Format.double : Format := ⟨53, -1074, 971⟩

/-- A finite number is `mantissa * 2 ^ exponent`, or its opposite. -/
inductive Floating (format : Format)
  | nan
  | infinite (negative : Bool)
  | finite (negative : Bool) (mantissa : Nat) (exponent : Int)
  deriving DecidableEq, Repr

abbrev Single := Floating .single

abbrev Double := Floating .double

/-- The nearest integer to `n / d`, a tie going to the even one. -/
def roundHalfEven (n d : Nat) : Nat :=
  let twice := 2 * (n % d)
  if twice < d ∨ (twice = d ∧ n / d % 2 = 0) then n / d else n / d + 1

/-- The `e` with `2 ^ e ≤ n / d < 2 ^ (e + 1)`. -/
def leadingExponent (n d : Nat) : Int :=
  let e : Int := n.log2 - d.log2
  if d <<< e.toNat ≤ n <<< (-e).toNat then e else e - 1

/-- `m`, or its opposite. -/
def signed (negative : Bool) (m : Nat) : Int :=
  if negative then -m else m

namespace Floating

variable {format : Format}

def zero (negative : Bool) : Floating format :=
  .finite negative 0 format.least

/-- The number of the format nearest to `n / d * 2 ^ scale`, or to its opposite. -/
def nearest (negative : Bool) (n d : Nat) (scale : Int) : Floating format :=
  if n = 0 then zero negative else
    let last := max format.least (leadingExponent n d + scale - (format.precision - 1))
    let shift := scale - last
    let m := roundHalfEven (n <<< shift.toNat) (d <<< (-shift).toNat)
    let carry := m = 1 <<< format.precision
    let last := if carry then last + 1 else last
    if format.greatest < last then .infinite negative
    else .finite negative (if carry then m / 2 else m) last

def ofInt (n : Int) : Floating format :=
  nearest (n < 0) n.natAbs 1 0

/-- The nearest number of another format. -/
def convert {target : Format} : Floating format → Floating target
  | .nan => .nan
  | .infinite s => .infinite s
  | .finite s m e => nearest s m 1 e

def neg : Floating format → Floating format
  | .nan => .nan
  | .infinite s => .infinite (!s)
  | .finite s m e => .finite (!s) m e

def add : Floating format → Floating format → Floating format
  | .nan, _ => .nan
  | _, .nan => .nan
  | .infinite s, .infinite t => if s = t then .infinite s else .nan
  | .infinite s, .finite .. => .infinite s
  | .finite .., .infinite t => .infinite t
  | .finite s m e, .finite t n e' =>
    let low := min e e'
    let sum := signed s (m <<< (e - low).toNat) + signed t (n <<< (e' - low).toNat)
    if sum = 0 then zero (s && t) else nearest (sum < 0) sum.natAbs 1 low

def sub (x y : Floating format) : Floating format :=
  x.add y.neg

def mul : Floating format → Floating format → Floating format
  | .nan, _ => .nan
  | _, .nan => .nan
  | .infinite s, .infinite t => .infinite (s != t)
  | .infinite s, .finite t n _ => if n = 0 then .nan else .infinite (s != t)
  | .finite s m _, .infinite t => if m = 0 then .nan else .infinite (s != t)
  | .finite s m e, .finite t n e' => nearest (s != t) (m * n) 1 (e + e')

def div : Floating format → Floating format → Floating format
  | .nan, _ => .nan
  | _, .nan => .nan
  | .infinite _, .infinite _ => .nan
  | .infinite s, .finite t .. => .infinite (s != t)
  | .finite s .., .infinite t => zero (s != t)
  | .finite s m e, .finite t n e' =>
    if n = 0 then if m = 0 then .nan else .infinite (s != t)
    else nearest (s != t) m n (e - e')

instance : Add (Floating format) := ⟨add⟩

instance : Sub (Floating format) := ⟨sub⟩

instance : Mul (Floating format) := ⟨mul⟩

instance : Div (Floating format) := ⟨div⟩

instance : Neg (Floating format) := ⟨neg⟩

/-- The order of two numbers; `nan` has a place in none. -/
def compare? : Floating format → Floating format → Option Ordering
  | .nan, _ => none
  | _, .nan => none
  | .infinite s, .infinite t => some (compare (signed s 1) (signed t 1))
  | .infinite s, .finite .. => some (compare (signed s 1) 0)
  | .finite .., .infinite t => some (compare 0 (signed t 1))
  | .finite s m e, .finite t n e' =>
    let low := min e e'
    some (compare (signed s (m <<< (e - low).toNat)) (signed t (n <<< (e' - low).toNat)))

def less (x y : Floating format) : Bool :=
  x.compare? y == some .lt

def atMost (x y : Floating format) : Bool :=
  x.less y || x.compare? y == some .eq

/-- The lesser of two numbers; `nan` gives way to a number. -/
def lesser : Floating format → Floating format → Floating format
  | .nan, y => y
  | x, .nan => x
  | x, y => if y.less x then y else x

/-- The greater of two numbers; `nan` gives way to a number. -/
def greater : Floating format → Floating format → Floating format
  | .nan, y => y
  | x, .nan => x
  | x, y => if x.less y then y else x

def isInfinite : Floating format → Bool
  | .infinite _ => true
  | _ => false

/-- The integer part, held to 32 bits. -/
def truncate : Floating format → Int
  | .nan => 0
  | .infinite s => if s then leastInt else greatestInt
  | .finite s m e => saturate (signed s ((m <<< e.toNat) >>> (-e).toNat))

/-- The nearest integer, halves going away from zero, held to 32 bits. -/
def round : Floating format → Int
  | .nan => 0
  | .infinite s => if s then leastInt else greatestInt
  | .finite s m e =>
    saturate (signed s (((m <<< (e + 1).toNat) >>> (-(e + 1)).toNat + 1) / 2))

/-- The bits of a number in the interchange format: its sign, its exponent and its fraction. -/
def bits : Floating format → Nat
  | .nan => top <<< (format.precision - 1) + 1 <<< (format.precision - 2)
  | .infinite s => sign s + top <<< (format.precision - 1)
  | .finite s m e =>
    let hidden := 1 <<< (format.precision - 1)
    let field := if m < hidden then 0 else (e - format.least).toNat
    sign s + field <<< (format.precision - 1) + m
where
  top : Nat := (format.greatest - format.least).toNat + 2
  sign (negative : Bool) : Nat := if negative then (top + 1) <<< (format.precision - 1) else 0

end Floating

end Handset
