import Handset.Geometry.Rect

/-! Rectangles as sets of points. The common part of two rectangles is computed from their edges and
from the differences of these; where all of them are 32-bit numbers it has just the points that both
have, and where one is not there is no result. -/

namespace Handset

namespace Checked

/-- A 32-bit signed integer. -/
def Fits (n : Int) : Prop :=
  leastInt ≤ n ∧ n ≤ greatestInt

instance (n : Int) : Decidable (Fits n) :=
  inferInstanceAs (Decidable (_ ∧ _))

theorem result_eq_ok {op : Arith} {n m : Int} : result op n = .ok m ↔ Fits n ∧ m = n := by
  unfold result
  split
  · rename_i fits
    exact ⟨fun h => ⟨fits, (Except.ok.inj h).symm⟩, fun h => h.2 ▸ rfl⟩
  · rename_i range
    exact ⟨nofun, fun h => absurd h.1 range⟩

theorem result_of_not_fits {op : Arith} {n : Int} (range : ¬ Fits n) :
    result op n = .error (.overflow op) :=
  if_neg range

theorem abs_eq {n : Int} (fits : n.natAbs ≤ greatestInt) : abs n = .ok n.natAbs := by
  unfold abs
  split
  · rw [neg, result_of_mem (by unfold leastInt; omega)]
    congr 1
    omega
  · congr 1
    omega

end Checked

namespace Rect

open Checked (Fits)

/-- The rectangle is given by 32-bit numbers, and its far edges are such numbers too. -/
structure Edged (r : Rect) : Prop where
  left : Fits r.x
  top : Fits r.y
  width : Fits r.width
  height : Fits r.height
  right : Fits (r.x + r.width)
  bottom : Fits (r.y + r.height)

/-- The common part, in exact arithmetic. -/
def meet (a b : Rect) : Rect where
  x := max a.x b.x
  y := max a.y b.y
  width := max (min (a.x + a.width) (b.x + b.width) - max a.x b.x) 0
  height := max (min (a.y + a.height) (b.y + b.height) - max a.y b.y) 0

/-- The far edges of both rectangles and the sides of their common part are 32-bit numbers, also
where the sides are negative. -/
structure Meets (a b : Rect) : Prop where
  right : Fits (a.x + a.width)
  right' : Fits (b.x + b.width)
  bottom : Fits (a.y + a.height)
  bottom' : Fits (b.y + b.height)
  across : Fits (min (a.x + a.width) (b.x + b.width) - max a.x b.x)
  down : Fits (min (a.y + a.height) (b.y + b.height) - max a.y b.y)

/-- No gap between the rectangles is wider than a 32-bit number can say. -/
structure Near (a b : Rect) : Prop where
  across : leastInt ≤ min (a.x + a.width) (b.x + b.width) - max a.x b.x
  down : leastInt ≤ min (a.y + a.height) (b.y + b.height) - max a.y b.y

variable {a b c r : Rect} {x y : Int}

theorem covers_meet : (a.meet b).Covers x y ↔ a.Covers x y ∧ b.Covers x y := by
  simp only [Covers, meet]
  omega

theorem intersection_eq_ok : a.intersection b = .ok c ↔ a.Meets b ∧ c = a.meet b := by
  constructor
  · intro common
    obtain ⟨right, across, common⟩ := Checked.bind_eq_ok.mp common
    obtain ⟨right', across', common⟩ := Checked.bind_eq_ok.mp common
    obtain ⟨bottom, down, common⟩ := Checked.bind_eq_ok.mp common
    obtain ⟨bottom', down', common⟩ := Checked.bind_eq_ok.mp common
    obtain ⟨width, wide, common⟩ := Checked.bind_eq_ok.mp common
    obtain ⟨height, high, common⟩ := Checked.bind_eq_ok.mp common
    cases common
    obtain ⟨fits, rfl⟩ := Checked.result_eq_ok.mp across
    obtain ⟨fits', rfl⟩ := Checked.result_eq_ok.mp across'
    obtain ⟨below, rfl⟩ := Checked.result_eq_ok.mp down
    obtain ⟨below', rfl⟩ := Checked.result_eq_ok.mp down'
    obtain ⟨sides, rfl⟩ := Checked.result_eq_ok.mp wide
    obtain ⟨heights, rfl⟩ := Checked.result_eq_ok.mp high
    exact ⟨⟨fits, fits', below, below', sides, heights⟩, rfl⟩
  · rintro ⟨meets, rfl⟩
    have right : a.right = .ok (a.x + a.width) := Checked.result_of_mem meets.right
    have right' : b.right = .ok (b.x + b.width) := Checked.result_of_mem meets.right'
    have bottom : a.bottom = .ok (a.y + a.height) := Checked.result_of_mem meets.bottom
    have bottom' : b.bottom = .ok (b.y + b.height) := Checked.result_of_mem meets.bottom'
    have across : Checked.sub (min (a.x + a.width) (b.x + b.width)) (max a.x b.x) = .ok _ :=
      Checked.result_of_mem meets.across
    have down : Checked.sub (min (a.y + a.height) (b.y + b.height)) (max a.y b.y) = .ok _ :=
      Checked.result_of_mem meets.down
    simp only [intersection, right, right', bottom, bottom', bind, Except.bind, across, down]
    rfl

/-- Where the edges are numbers, only the width of a gap can be out of range. -/
theorem Edged.meets_iff (edged : a.Edged) (edged' : b.Edged) : a.Meets b ↔ a.Near b := by
  constructor
  · intro meets
    exact ⟨meets.across.1, meets.down.1⟩
  · intro near
    refine ⟨edged.right, edged'.right, edged.bottom, edged'.bottom, ⟨near.across, ?_⟩,
      ⟨near.down, ?_⟩⟩
    · have := edged.width.2
      omega
    · have := edged.height.2
      omega

/-- A gap that is too wide is subtracted all the same. -/
theorem Edged.intersection_of_not_near (edged : a.Edged) (edged' : b.Edged) (far : ¬ a.Near b) :
    a.intersection b = .error (.overflow .subtract) := by
  have right : a.right = .ok (a.x + a.width) := Checked.result_of_mem edged.right
  have right' : b.right = .ok (b.x + b.width) := Checked.result_of_mem edged'.right
  have bottom : a.bottom = .ok (a.y + a.height) := Checked.result_of_mem edged.bottom
  have bottom' : b.bottom = .ok (b.y + b.height) := Checked.result_of_mem edged'.bottom
  simp only [intersection, right, right', bottom, bottom', bind, Except.bind, Checked.sub]
  by_cases across : Fits (min (a.x + a.width) (b.x + b.width) - max a.x b.x)
  · have down : ¬ Fits (min (a.y + a.height) (b.y + b.height) - max a.y b.y) := fun down =>
      far ⟨across.1, down.1⟩
    rw [Checked.result_of_mem across, Checked.result_of_not_fits down]
  · rw [Checked.result_of_not_fits across]

/-- A rectangle with its edges in range says of every point whether it has it. -/
theorem contains_eq (right : Fits (r.x + r.width)) (bottom : Fits (r.y + r.height)) (x y : Int) :
    r.contains x y = .ok (decide (r.Covers x y)) := by
  have right : r.right = .ok (r.x + r.width) := Checked.result_of_mem right
  have bottom : r.bottom = .ok (r.y + r.height) := Checked.result_of_mem bottom
  have returns : ∃ inside, r.contains x y = .ok inside := by
    simp only [contains, right, bottom, bind, Except.bind]
    split
    · exact ⟨_, rfl⟩
    · split
      · exact ⟨_, rfl⟩
      · exact ⟨_, rfl⟩
  obtain ⟨inside, returned⟩ := returns
  have answer := contains_eq_ok returned
  rw [returned]
  cases inside with
  | true => rw [decide_eq_true (answer.mp rfl)]
  | false => rw [decide_eq_false fun covers => Bool.false_ne_true (answer.mpr covers)]

/-- The edges of a common part lie among those of the two rectangles. -/
theorem Edged.fits_meet (edged : a.Edged) (edged' : b.Edged) :
    Fits ((a.meet b).x + (a.meet b).width) ∧ Fits ((a.meet b).y + (a.meet b).height) := by
  obtain ⟨left, top, -, -, right, bottom⟩ := edged
  obtain ⟨left', top', -, -, right', bottom'⟩ := edged'
  simp only [Fits, meet] at *
  omega

/-- The common part says of a point that it has it just if both rectangles say so. -/
theorem Edged.contains_meet (edged : a.Edged) (edged' : b.Edged) (x y : Int) :
    ∃ inside inside', a.contains x y = .ok inside ∧ b.contains x y = .ok inside' ∧
      (a.meet b).contains x y = .ok (inside && inside') := by
  obtain ⟨right, bottom⟩ := edged.fits_meet edged'
  refine ⟨_, _, contains_eq edged.right edged.bottom x y,
    contains_eq edged'.right edged'.bottom x y, ?_⟩
  rw [contains_eq right bottom, ← Bool.decide_and]
  exact congrArg Except.ok (decide_eq_decide.mpr covers_meet)

/-- The rectangle moved by `dx` and `dy`, in exact arithmetic. -/
def moved (r : Rect) (dx dy : Int) : Rect :=
  ⟨r.x + dx, r.y + dy, r.width, r.height⟩

theorem shift_eq_ok {r r' : Rect} {dx dy : Int} :
    r.shift dx dy = .ok r' ↔ (Fits (r.x + dx) ∧ Fits (r.y + dy)) ∧ r' = r.moved dx dy := by
  constructor
  · intro moved
    obtain ⟨x, across, moved⟩ := Checked.bind_eq_ok.mp moved
    obtain ⟨y, down, moved⟩ := Checked.bind_eq_ok.mp moved
    cases moved
    obtain ⟨fits, rfl⟩ := Checked.result_eq_ok.mp across
    obtain ⟨fits', rfl⟩ := Checked.result_eq_ok.mp down
    exact ⟨⟨fits, fits'⟩, rfl⟩
  · rintro ⟨⟨fits, fits'⟩, rfl⟩
    have x : Checked.add r.x dx = .ok (r.x + dx) := Checked.result_of_mem fits
    have y : Checked.add r.y dy = .ok (r.y + dy) := Checked.result_of_mem fits'
    simp only [shift, x, y]
    rfl

end Rect

end Handset
