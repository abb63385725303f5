import Handset.Fault

/-! Arithmetic on 32-bit signed integers, written on `Int`: a result out of range is a fault that
names the operation. -/

namespace Handset

def leastInt : Int := -2147483648

def greatestInt : Int := 2147483647

/-- The nearest 32-bit signed integer. -/
def saturate (n : Int) : Int :=
  max leastInt (min n greatestInt)

/-- The nearest number between `low` and `high`. -/
def clamp (low high n : Int) : Int :=
  max low (min n high)

namespace Checked

def result (op : Arith) (n : Int) : Except Fault Int :=
  if leastInt ≤ n ∧ n ≤ greatestInt then .ok n else .error (.overflow op)

def add (a b : Int) : Except Fault Int :=
  result .add (a + b)

def sub (a b : Int) : Except Fault Int :=
  result .subtract (a - b)

def mul (a b : Int) : Except Fault Int :=
  result .multiply (a * b)

def neg (a : Int) : Except Fault Int :=
  result .negate (-a)

/-- The magnitude: only the least integer has none. -/
def abs (a : Int) : Except Fault Int :=
  if a < 0 then neg a else .ok a

@[simp] theorem result_of_mem {op : Arith} {n : Int} (h : leastInt ≤ n ∧ n ≤ greatestInt) :
    result op n = .ok n :=
  if_pos h

theorem result_of_nonneg {op : Arith} {n : Int} (nonneg : 0 ≤ n) (le : n ≤ greatestInt) :
    result op n = .ok n :=
  result_of_mem ⟨Int.le_trans (by decide) nonneg, le⟩

theorem eq_of_result {op : Arith} {n m : Int} (computed : result op n = .ok m) : m = n := by
  unfold result at computed
  split at computed
  · exact (Except.ok.inj computed).symm
  · cases computed

theorem le_of_result {op : Arith} {n m : Int} (computed : result op n = .ok m) :
    m ≤ greatestInt := by
  unfold result at computed
  split at computed
  · rename_i range
    cases computed
    exact range.2
  · cases computed

/-- A computation in two parts has a result exactly when both have. -/
theorem bind_eq_ok {ε α β : Type} {first : Except ε α} {next : α → Except ε β} {b : β} :
    first >>= next = .ok b ↔ ∃ a, first = .ok a ∧ next a = .ok b := by
  cases first with
  | error fault => simp [bind, Except.bind]
  | ok a => simp [bind, Except.bind]

end Checked

end Handset
