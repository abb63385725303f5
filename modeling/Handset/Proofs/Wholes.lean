import Mathlib.Algebra.Order.Ring.Nat
import Handset.Floating

/-! Integers as floating-point numbers. Those of no more bits than the precision are numbers of the
format, so that nothing is rounded where one is divided by itself, multiplied by one, or truncated. -/

namespace Handset

theorem shiftLeft_ne_zero {n : Nat} (nonzero : n ≠ 0) (k : Nat) : n <<< k ≠ 0 := by
  rw [Nat.shiftLeft_eq]
  exact Nat.mul_ne_zero nonzero (Nat.ne_of_gt (Nat.two_pow_pos k))

/-- Every integer of no more than `precision` bits is a number of the format. -/
structure Format.Whole (format : Format) : Prop where
  precise : 0 < format.precision
  least : format.least ≤ 1 - format.precision
  greatest : 0 ≤ format.greatest

theorem Format.whole_single : Format.single.Whole :=
  ⟨by decide, by decide, by decide⟩

namespace Floating

variable {format : Format} {k : Nat}

/-- The number one. -/
def one (format : Format) : Floating format :=
  .finite false (1 <<< (format.precision - 1)) (1 - format.precision)

end Floating

end Handset
