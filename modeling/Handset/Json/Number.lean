import Handset.Floating

/-! Numbers as JSON writes them, and the values they stand for. A number is kept as its digits, so
that numbers of any size can be read over. -/

namespace Handset.Json

/-- The sign, the digits before and after the point, and the exponent with its sign. A number
without a point or an exponent has `none` in its place. -/
structure Number where
  negative : Bool
  whole : List Nat
  fraction : Option (List Nat)
  exponent : Option (Bool × List Nat)
  deriving DecidableEq, Repr

namespace Number

def greatestWord : Nat := 18446744073709551615

def value (digits : List Nat) : Nat :=
  digits.foldl (fun n d => n * 10 + d) 0

/-- The integer that is written without point and exponent. Zero has no sign, and a number of more
than 64 bits is no integer. -/
def toInt? (n : Number) : Option Int :=
  match n.fraction, n.exponent with
  | none, none =>
    let m := value n.whole
    if n.negative then
      if 0 < m ∧ m ≤ 9223372036854775808 then some (-m) else none
    else if m ≤ greatestWord then some m else none
  | _, _ => none

/-- Takes digits into a 64-bit word as long as they fit. The result is the word and the number of
digits that were left out. -/
def accumulate (word : Nat) : List Nat → Nat × Nat
  | [] => (word, 0)
  | d :: rest =>
    if word * 10 + d ≤ greatestWord then accumulate (word * 10 + d) rest
    else (word, rest.length + 1)

/-- The number `10 ^ n` of a format, for an `n` that it can hold. -/
def power {format : Format} (n : Nat) : Floating format :=
  .nearest false (Nat.pow 10 n) 1 0

/-- `word * 10 ^ exponent`, with powers up to `10 ^ 308` and one rounding for each. A number that
is too large is none. The small numbers that take several divisions need not be rounded well. -/
def scaled (word : Double) (exponent : Int) : Nat → Option Double
  | 0 => none
  | fuel + 1 =>
    if exponent.natAbs ≤ 308 then
      if exponent < 0 then some (word / power exponent.natAbs)
      else
        let product := word * power exponent.natAbs
        if product.isInfinite then none else some product
    else if word.compare? (.zero false) = some .eq then some word
    else if 0 < exponent then none
    else scaled (word / power 308) (exponent + 308) fuel

/-- The magnitude as a double: the leading digits that fit a word, scaled. Digits left out before
the point count as zeros. An exponent past 32 bits decides the number unless the word is zero. -/
def magnitude? (n : Number) : Option Double :=
  let (whole, dropped) := accumulate 0 n.whole
  let fraction := n.fraction.getD []
  let (word, unread) := accumulate whole fraction
  let shift : Int := dropped - (fraction.length - unread : Nat)
  let double : Double := .ofInt word
  match n.exponent with
  | none => scaled double shift (shift.natAbs + 2)
  | some (down, digits) =>
    let e := value digits
    if greatestInt < e then
      if word ≠ 0 ∧ !down then none else some (.zero false)
    else
      let total := saturate (if down then shift - e else shift + e)
      scaled double total (total.natAbs + 2)

def toDouble? (n : Number) : Option Double :=
  n.magnitude?.map fun m => if n.negative then -m else m

/-- Integers of 64 bits are rounded once, all other numbers by way of a double. -/
def toSingle? (n : Number) : Option Single :=
  match n.toInt? with
  | some m => some (.ofInt m)
  | none => n.toDouble?.map (·.convert)

end Number

end Handset.Json
