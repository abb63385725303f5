import Handset.Checked

/-! Axis-aligned rectangles in pixels. An edge out of the 32-bit range is a fault, so the questions
that need an edge may have no answer. -/

namespace Handset

structure Rect where
  x : Int
  y : Int
  width : Int
  height : Int
  deriving DecidableEq, Repr

namespace Rect

/-- The point lies in the rectangle, as exact arithmetic sees it. -/
def Covers (r : Rect) (x y : Int) : Prop :=
  r.x ≤ x ∧ x < r.x + r.width ∧ r.y ≤ y ∧ y < r.y + r.height

instance (r : Rect) (x y : Int) : Decidable (r.Covers x y) :=
  inferInstanceAs (Decidable (_ ∧ _))

def right (r : Rect) : Except Fault Int :=
  Checked.add r.x r.width

def bottom (r : Rect) : Except Fault Int :=
  Checked.add r.y r.height

def isEmpty (r : Rect) : Bool :=
  r.width ≤ 0 || r.height ≤ 0

/-- An edge is only computed while the answer is open. -/
def contains (r : Rect) (x y : Int) : Except Fault Bool := do
  if x < r.x ∨ y < r.y then return false
  if (← r.right) ≤ x then return false
  return y < (← r.bottom)

theorem contains_eq_ok {r : Rect} {x y : Int} {b : Bool} (h : r.contains x y = .ok b) :
    b = true ↔ r.Covers x y := by
  simp only [contains, right, bottom, Checked.add, Checked.result, Covers] at h ⊢
  by_cases h₁ : x < r.x ∨ y < r.y
  · rw [if_pos h₁] at h
    cases h
    simp
    omega
  · rw [if_neg h₁] at h
    by_cases h₂ : leastInt ≤ r.x + r.width ∧ r.x + r.width ≤ greatestInt
    · simp only [h₂, bind, Except.bind, pure, Except.pure] at h
      by_cases h₃ : r.x + r.width ≤ x
      · simp [h₃] at h
        cases h
        simp
        omega
      · by_cases h₄ : leastInt ≤ r.y + r.height ∧ r.y + r.height ≤ greatestInt
        · simp [h₃, h₄] at h
          cases h
          simp
          omega
        · simp [h₃, h₄] at h
    · simp [h₂, bind, Except.bind] at h

/-- The other rectangle lies entirely inside. -/
def containsRect (r other : Rect) : Except Fault Bool := do
  if other.x < r.x ∨ other.y < r.y then return false
  let right ← other.right
  if (← r.right) < right then return false
  let bottom ← other.bottom
  return bottom ≤ (← r.bottom)

/-- The common part; its sides are zero where there is none. -/
def intersection (r other : Rect) : Except Fault Rect := do
  let x := max r.x other.x
  let y := max r.y other.y
  let right := min (← r.right) (← other.right)
  let bottom := min (← r.bottom) (← other.bottom)
  return ⟨x, y, max (← Checked.sub right x) 0, max (← Checked.sub bottom y) 0⟩

/-- The rectangle moved by `dx` and `dy`. -/
def shift (r : Rect) (dx dy : Int) : Except Fault Rect := do
  return ⟨← Checked.add r.x dx, ← Checked.add r.y dy, r.width, r.height⟩

end Rect

end Handset
