import Handset.Proofs.Clips

/-! Lines, point by point. A line takes one step for each pixel of its longer side, and is after each
of them at the point of the shorter one that is the nearest to it. -/

namespace Handset

open Checked (Fits)

/-- How far it is along a side of `short` pixels after `k` of `long` steps: to the nearest pixel, and
half way is on. -/
def nearestStep (short long k : Int) : Int :=
  (2 * k * short + long) / (2 * long)

theorem le_nearestStep {long : Int} (short k m : Int) (pos : 0 < long) :
    m ≤ nearestStep short long k ↔ 2 * (m * long) ≤ 2 * (k * short) + long := by
  have twice : 0 < 2 * long := by omega
  rw [nearestStep, Int.le_ediv_iff_mul_le twice, Int.mul_left_comm, Int.mul_assoc]

theorem nearestStep_mul_le {long : Int} (short k : Int) (pos : 0 < long) :
    2 * (nearestStep short long k * long) ≤ 2 * (k * short) + long :=
  (le_nearestStep _ _ _ pos).mp (Int.le_refl _)

theorem lt_nearestStep_succ {long : Int} (short k : Int) (pos : 0 < long) :
    2 * (k * short) + long < 2 * ((nearestStep short long k + 1) * long) := by
  have ahead := mt (le_nearestStep short k _ pos).mpr (Int.not_le.mpr (Int.lt_succ _))
  exact Int.not_le.mp ahead

/-- The side is followed by one pixel or by none, according to which is the nearer. -/
theorem nearestStep_succ {short long k : Int} (pos : 0 < long) (nonneg : 0 ≤ short)
    (le : short ≤ long) : nearestStep short long (k + 1) =
      if 2 * ((nearestStep short long k + 1) * long) ≤ 2 * ((k + 1) * short) + long then
        nearestStep short long k + 1
      else nearestStep short long k := by
  have reached (m : Int) : m ≤ nearestStep short long k ↔ _ := le_nearestStep short k m pos
  have next (m : Int) : m ≤ nearestStep short long (k + 1) ↔ _ :=
    le_nearestStep short (k + 1) m pos
  generalize nearestStep short long k = q at *
  generalize nearestStep short long (k + 1) = q' at *
  have here := (reached q).mp (Int.le_refl q)
  have ahead := mt (reached (q + 1)).mpr (by omega)
  have still := next q
  have once := next (q + 1)
  have twice := next (q + 1 + 1)
  -- Two pixels on would be reached only if one was reached before.
  simp only [Int.add_mul, Int.one_mul] at *
  split <;> omega

theorem nearestStep_zero (short : Int) {long : Int} (nonneg : 0 ≤ long) :
    nearestStep short long 0 = 0 := by
  rcases Int.lt_or_eq_of_le nonneg with pos | rfl
  · have here := nearestStep_mul_le short 0 pos
    have ahead := lt_nearestStep_succ short 0 pos
    have reached := le_nearestStep short 0 0 pos
    have passed := le_nearestStep short 0 1 pos
    omega
  · simp [nearestStep]

theorem nearestStep_self {short long : Int} (nonneg : 0 ≤ short) (le : short ≤ long) :
    nearestStep short long long = short := by
  rcases Int.lt_or_eq_of_le (Int.le_trans nonneg le) with pos | rfl
  · have reached := (le_nearestStep short long short pos).mpr
      (by rw [Int.mul_comm short]; omega)
    have passed := mt (le_nearestStep short long (short + 1) pos).mp
      (by rw [Int.add_mul, Int.mul_comm short]; omega)
    omega
  · rw [Int.le_antisymm le nonneg]
    rfl

theorem nearestStep_mono {short long k m : Int} (nonneg : 0 ≤ short) (long_nonneg : 0 ≤ long)
    (le : k ≤ m) : nearestStep short long k ≤ nearestStep short long m := by
  have further : 2 * k * short ≤ 2 * m * short :=
    Int.mul_le_mul_of_nonneg_right (by omega) nonneg
  rcases Int.lt_or_eq_of_le long_nonneg with pos | rfl
  · exact Int.ediv_le_ediv (by omega) (by omega)
  · simp [nearestStep]

/-- Along the shorter side a line is between its ends. -/
theorem nearestStep_mem {short long k : Int} (nonneg : 0 ≤ short) (le : short ≤ long)
    (steps_nonneg : 0 ≤ k) (steps_le : k ≤ long) :
    0 ≤ nearestStep short long k ∧ nearestStep short long k ≤ short := by
  have long_nonneg := Int.le_trans nonneg le
  have first := nearestStep_mono nonneg long_nonneg steps_nonneg
  have last := nearestStep_mono nonneg long_nonneg steps_le
  rw [nearestStep_zero short long_nonneg] at first
  rw [nearestStep_self nonneg le] at last
  exact ⟨first, last⟩

namespace Draw.Line

/-- The step across, if the error asks for one. -/
def goAcross (line : Line) (twice : Int) : Except Fault Line :=
  if line.dy ≤ twice then do
    let error ← Checked.add line.error line.dy
    let x ← Checked.add line.x line.stepX
    pure { line with x, error }
  else pure line

/-- The step down, if the error asks for one. -/
def goDown (line : Line) (twice : Int) : Except Fault Line :=
  if twice ≤ line.dx then do
    let error ← Checked.add line.error line.dx
    let y ← Checked.add line.y line.stepY
    pure { line with y, error }
  else pure line

theorem step_eq (line : Line) : line.step = (do
    let twice ← Checked.mul 2 line.error
    let line ← line.goAcross twice
    line.goDown twice) := by
  unfold step
  cases Checked.mul 2 line.error with
  | error fault => rfl
  | ok twice =>
    simp only [goAcross, bind, Except.bind]
    by_cases asks : line.dy ≤ twice
    · simp only [if_pos asks]
      cases Checked.add line.error line.dy with
      | error fault => rfl
      | ok error =>
        cases Checked.add line.x line.stepX with
        | error fault => rfl
        | ok x => rfl
    · simp only [if_neg asks]
      rfl

variable {line : Line} {twice : Int}

theorem goAcross_of_le (asks : line.dy ≤ twice) (error : Fits (line.error + line.dy))
    (x : Fits (line.x + line.stepX)) : line.goAcross twice =
      .ok { line with x := line.x + line.stepX, error := line.error + line.dy } := by
  have error : Checked.add line.error line.dy = .ok _ := Checked.result_of_mem error
  have x : Checked.add line.x line.stepX = .ok _ := Checked.result_of_mem x
  rw [goAcross, if_pos asks, error, x]
  rfl

theorem goAcross_of_not (asks : ¬ line.dy ≤ twice) : line.goAcross twice = .ok line :=
  if_neg asks

theorem goDown_of_not (asks : ¬ twice ≤ line.dx) : line.goDown twice = .ok line :=
  if_neg asks

theorem goDown_of_le (asks : twice ≤ line.dx) (error : Fits (line.error + line.dx))
    (y : Fits (line.y + line.stepY)) : line.goDown twice =
      .ok { line with y := line.y + line.stepY, error := line.error + line.dx } := by
  have error : Checked.add line.error line.dx = .ok _ := Checked.result_of_mem error
  have y : Checked.add line.y line.stepY = .ok _ := Checked.result_of_mem y
  rw [goDown, if_pos asks, error, y]
  rfl

end Draw.Line

/-- Where a line begins and where it ends. -/
structure Segment where
  x : Int
  y : Int
  endX : Int
  endY : Int
  deriving DecidableEq, Repr

namespace Segment

def wide (s : Segment) : Int :=
  (s.endX - s.x).natAbs

def high (s : Segment) : Int :=
  (s.endY - s.y).natAbs

/-- The number of steps from end to end. -/
def length (s : Segment) : Nat :=
  max (s.endX - s.x).natAbs (s.endY - s.y).natAbs

def stepX (s : Segment) : Int :=
  if s.x < s.endX then 1 else -1

def stepY (s : Segment) : Int :=
  if s.y < s.endY then 1 else -1

/-- How far the line is across after `k` steps. -/
def across (s : Segment) (k : Int) : Int :=
  if s.high ≤ s.wide then k else nearestStep s.wide s.high k

/-- How far the line is down after `k` steps. -/
def down (s : Segment) (k : Int) : Int :=
  if s.high ≤ s.wide then nearestStep s.high s.wide k else k

def point (s : Segment) (k : Int) : Int × Int :=
  (s.x + s.stepX * s.across k, s.y + s.stepY * s.down k)

/-- The error of the step that follows after so many across and so many down. -/
def errorAt (s : Segment) (across down : Int) : Int :=
  (down + 1) * s.wide - (across + 1) * s.high

def error (s : Segment) (k : Int) : Int :=
  s.errorAt (s.across k) (s.down k)

/-- The line on its way, after `k` steps. -/
def after (s : Segment) (k : Int) : Draw.Line where
  x := (s.point k).1
  y := (s.point k).2
  endX := s.endX
  endY := s.endY
  dx := s.wide
  dy := -s.high
  stepX := s.stepX
  stepY := s.stepY
  error := s.error k

/-- Both ends are in range, and no side is longer than 2 ^ 29 pixels: three times as much, to which
twice the error comes at most, is in range too. -/
structure InRange (s : Segment) : Prop where
  x : Fits s.x
  y : Fits s.y
  endX : Fits s.endX
  endY : Fits s.endY
  wide : s.wide ≤ 536870912
  high : s.high ≤ 536870912

variable {s : Segment} {k : Int}

theorem errorAt_succ_across (s : Segment) (p q : Int) :
    s.errorAt (p + 1) q = s.errorAt p q + -s.high := by
  rw [errorAt, errorAt, Int.add_mul (p + 1), Int.one_mul]
  omega

theorem errorAt_succ_down (s : Segment) (p q : Int) :
    s.errorAt p (q + 1) = s.errorAt p q + s.wide := by
  rw [errorAt, errorAt, Int.add_mul (q + 1), Int.one_mul]
  omega

theorem wide_nonneg (s : Segment) : 0 ≤ s.wide :=
  Int.natCast_nonneg _

theorem high_nonneg (s : Segment) : 0 ≤ s.high :=
  Int.natCast_nonneg _

theorem length_eq (s : Segment) : (s.length : Int) = max s.wide s.high := by
  unfold length wide high
  omega

theorem length_of_flat (flat : s.high ≤ s.wide) : (s.length : Int) = s.wide :=
  (length_eq s).trans (Int.max_eq_left flat)

theorem length_of_steep (steep : ¬ s.high ≤ s.wide) : (s.length : Int) = s.high :=
  (length_eq s).trans (Int.max_eq_right (Int.le_of_lt (Int.not_le.mp steep)))

/-- The steps across: along the longer side every step, along the shorter one those that the error
asks for. -/
theorem across_succ (nonneg : 0 ≤ k) (lt : k < s.length) : s.across (k + 1) =
    if -s.high ≤ 2 * s.error k then s.across k + 1 else s.across k := by
  have wide := s.wide_nonneg
  unfold error errorAt across down
  by_cases flat : s.high ≤ s.wide
  · rw [length_of_flat flat] at lt
    have pos : 0 < s.wide := Int.lt_of_le_of_lt nonneg lt
    have ahead := lt_nearestStep_succ s.high k pos
    simp only [flat, if_true]
    -- Along the longer side the error always asks for a step.
    rw [if_pos]
    simp only [Int.add_mul, Int.one_mul] at *
    omega
  · rw [length_of_steep flat] at lt
    have pos : 0 < s.high := Int.lt_of_le_of_lt nonneg lt
    simp only [flat, if_false]
    rw [nearestStep_succ pos wide (Int.le_of_lt (Int.not_le.mp flat))]
    -- Along the shorter side it asks for one where the next pixel is as near.
    have asked (p : Int) : -s.high ≤ 2 * ((k + 1) * s.wide - (p + 1) * s.high) ↔
        2 * ((p + 1) * s.high) ≤ 2 * ((k + 1) * s.wide) + s.high := by
      omega
    simp only [asked]

theorem down_succ (nonneg : 0 ≤ k) (lt : k < s.length) : s.down (k + 1) =
    if 2 * s.error k ≤ s.wide then s.down k + 1 else s.down k := by
  have high := s.high_nonneg
  unfold error errorAt across down
  by_cases flat : s.high ≤ s.wide
  · rw [length_of_flat flat] at lt
    have pos : 0 < s.wide := Int.lt_of_le_of_lt nonneg lt
    simp only [flat, if_true]
    rw [nearestStep_succ pos high flat]
    have asked (q : Int) : 2 * ((q + 1) * s.wide - (k + 1) * s.high) ≤ s.wide ↔
        2 * ((q + 1) * s.wide) ≤ 2 * ((k + 1) * s.high) + s.wide := by
      omega
    simp only [asked]
  · rw [length_of_steep flat] at lt
    have pos : 0 < s.high := Int.lt_of_le_of_lt nonneg lt
    have ahead := lt_nearestStep_succ s.wide k pos
    simp only [flat, if_false]
    rw [if_pos]
    simp only [Int.add_mul, Int.one_mul] at *
    omega

/-- Twice the error is never further from zero than three of the longer side. -/
theorem error_bounds (nonneg : 0 ≤ k) (lt : k < s.length) :
    -(3 * s.length) ≤ 2 * s.error k ∧ 2 * s.error k ≤ 3 * s.length := by
  have wide := s.wide_nonneg
  have high := s.high_nonneg
  unfold error errorAt across down
  by_cases flat : s.high ≤ s.wide
  · rw [length_of_flat flat] at lt ⊢
    have pos : 0 < s.wide := Int.lt_of_le_of_lt nonneg lt
    have ahead := lt_nearestStep_succ s.high k pos
    have here := nearestStep_mul_le s.high k pos
    simp only [flat, if_true]
    simp only [Int.add_mul, Int.one_mul] at *
    omega
  · rw [length_of_steep flat] at lt ⊢
    have pos : 0 < s.high := Int.lt_of_le_of_lt nonneg lt
    have ahead := lt_nearestStep_succ s.wide k pos
    have here := nearestStep_mul_le s.wide k pos
    simp only [flat, if_false]
    simp only [Int.add_mul, Int.one_mul] at *
    omega

theorem across_mem (nonneg : 0 ≤ k) (le : k ≤ s.length) :
    0 ≤ s.across k ∧ s.across k ≤ s.wide := by
  unfold across
  by_cases flat : s.high ≤ s.wide
  · rw [length_of_flat flat] at le
    simp only [flat, if_true]
    exact ⟨nonneg, le⟩
  · rw [length_of_steep flat] at le
    simp only [flat, if_false]
    exact nearestStep_mem s.wide_nonneg (Int.le_of_lt (Int.not_le.mp flat)) nonneg le

theorem down_mem (nonneg : 0 ≤ k) (le : k ≤ s.length) : 0 ≤ s.down k ∧ s.down k ≤ s.high := by
  unfold down
  by_cases flat : s.high ≤ s.wide
  · rw [length_of_flat flat] at le
    simp only [flat, if_true]
    exact nearestStep_mem s.high_nonneg flat nonneg le
  · rw [length_of_steep flat] at le
    simp only [flat, if_false]
    exact ⟨nonneg, le⟩

theorem across_zero (s : Segment) : s.across 0 = 0 := by
  unfold across
  split
  · rfl
  · exact nearestStep_zero _ s.high_nonneg

theorem down_zero (s : Segment) : s.down 0 = 0 := by
  unfold down
  split
  · exact nearestStep_zero _ s.wide_nonneg
  · rfl

theorem InRange.fits_x (range : s.InRange) {p : Int} (nonneg : 0 ≤ p) (le : p ≤ s.wide) :
    Fits (s.x + s.stepX * p) := by
  have x := range.x
  have endX := range.endX
  unfold Segment.wide at le
  unfold stepX Fits at *
  split <;> omega

theorem InRange.fits_y (range : s.InRange) {q : Int} (nonneg : 0 ≤ q) (le : q ≤ s.high) :
    Fits (s.y + s.stepY * q) := by
  have y := range.y
  have endY := range.endY
  unfold Segment.high at le
  unfold stepY Fits at *
  split <;> omega

theorem InRange.start_eq (range : s.InRange) :
    Draw.Line.start s.x s.y s.endX s.endY = .ok (s.after 0) := by
  obtain ⟨-, -, -, -, wide_le, high_le⟩ := range
  have wide := s.wide_nonneg
  have high := s.high_nonneg
  have dx : Checked.sub s.endX s.x = .ok (s.endX - s.x) :=
    Checked.result_of_mem (by unfold Segment.wide at wide_le; unfold leastInt greatestInt; omega)
  have dy : Checked.sub s.endY s.y = .ok (s.endY - s.y) :=
    Checked.result_of_mem (by unfold Segment.high at high_le; unfold leastInt greatestInt; omega)
  have across : Checked.abs (s.endX - s.x) = .ok s.wide := Checked.abs_eq (by
    unfold Segment.wide at wide_le; unfold greatestInt; omega)
  have down : Checked.abs (s.endY - s.y) = .ok s.high := Checked.abs_eq (by
    unfold Segment.high at high_le; unfold greatestInt; omega)
  have up : Checked.neg s.high = .ok (-s.high) :=
    Checked.result_of_mem (by unfold leastInt greatestInt; omega)
  have error : Checked.add s.wide (-s.high) = .ok (s.wide + -s.high) :=
    Checked.result_of_mem (by unfold leastInt greatestInt; omega)
  simp only [Draw.Line.start, dx, dy, across, down, up, error, bind, Except.bind, pure, Except.pure]
  have error_zero : s.error 0 = s.wide + -s.high := by
    rw [Segment.error, errorAt, across_zero, down_zero]
    omega
  simp only [after, point, across_zero, down_zero, error_zero, Int.mul_zero, Int.add_zero]
  rfl

theorem errorAt_halfway (nonneg : 0 ≤ k) (lt : k < s.length) :
    s.error k + -s.high ≤ s.errorAt (s.across (k + 1)) (s.down k) ∧
      s.errorAt (s.across (k + 1)) (s.down k) ≤ s.error k := by
  have high := s.high_nonneg
  rw [across_succ nonneg lt]
  split
  · rw [errorAt_succ_across, error]
    omega
  · rw [error]
    omega

/-- The line after its step across, and before it goes down. -/
def halfway (s : Segment) (k : Int) : Draw.Line :=
  { s.after k with
    x := (s.point (k + 1)).1
    error := s.errorAt (s.across (k + 1)) (s.down k) }

theorem InRange.length_le (range : s.InRange) : (s.length : Int) ≤ 536870912 := by
  rw [length_eq]
  exact Int.max_le.mpr ⟨range.wide, range.high⟩

theorem InRange.goAcross_after (range : s.InRange) (nonneg : 0 ≤ k) (lt : k < s.length) :
    (s.after k).goAcross (2 * s.error k) = .ok (s.halfway k) := by
  have across := across_succ nonneg lt
  by_cases asks : -s.high ≤ 2 * s.error k
  · rw [if_pos asks] at across
    have bounds := error_bounds nonneg lt
    have long := range.length_le
    have high := range.high
    have inside := across_mem (s := s) (k := k + 1) (by omega) (by omega)
    have ahead : (s.point k).1 + s.stepX = (s.point (k + 1)).1 := by
      simp only [point, across, Int.mul_add, Int.mul_one, Int.add_assoc]
    have error : s.error k + -s.high = s.errorAt (s.across (k + 1)) (s.down k) := by
      rw [across, errorAt_succ_across, Segment.error]
    have fits : Fits (s.error k + -s.high) := by
      have high_nonneg := s.high_nonneg
      unfold Fits leastInt greatestInt
      omega
    rw [Draw.Line.goAcross_of_le asks fits (ahead ▸ range.fits_x inside.1 inside.2)]
    simp only [after, halfway, ahead, error]
  · rw [if_neg asks] at across
    rw [Draw.Line.goAcross_of_not asks, halfway, point, across]
    rfl

theorem InRange.goDown_halfway (range : s.InRange) (nonneg : 0 ≤ k) (lt : k < s.length) :
    (s.halfway k).goDown (2 * s.error k) = .ok (s.after (k + 1)) := by
  have down := down_succ nonneg lt
  by_cases asks : 2 * s.error k ≤ s.wide
  · rw [if_pos asks] at down
    have bounds := error_bounds nonneg lt
    have long := range.length_le
    have wide := range.wide
    have inside := down_mem (s := s) (k := k + 1) (by omega) (by omega)
    have ahead : (s.point k).2 + s.stepY = (s.point (k + 1)).2 := by
      simp only [point, down, Int.mul_add, Int.mul_one, Int.add_assoc]
    have error : s.errorAt (s.across (k + 1)) (s.down k) + s.wide = s.error (k + 1) := by
      rw [Segment.error, down, errorAt_succ_down]
    have fits : Fits (s.errorAt (s.across (k + 1)) (s.down k) + s.wide) := by
      have half := errorAt_halfway nonneg lt
      have wide_nonneg := s.wide_nonneg
      have high := range.high
      unfold Fits leastInt greatestInt
      omega
    rw [Draw.Line.goDown_of_le asks fits (ahead ▸ range.fits_y inside.1 inside.2)]
    simp only [after, halfway, ahead, error]
  · rw [if_neg asks] at down
    have same : (s.point (k + 1)).2 = (s.point k).2 := by
      rw [point, point, down]
    have error : s.errorAt (s.across (k + 1)) (s.down k) = s.error (k + 1) := by
      rw [Segment.error, down]
    rw [Draw.Line.goDown_of_not asks, halfway, error, after, after, same]

/-- Each step leads to the next of the points, and no number on the way is out of range. -/
theorem InRange.step_after (range : s.InRange) (nonneg : 0 ≤ k) (lt : k < s.length) :
    (s.after k).step = .ok (s.after (k + 1)) := by
  have bounds := error_bounds nonneg lt
  have long := range.length_le
  have twice : Checked.mul 2 (s.after k).error = .ok (2 * s.error k) :=
    Checked.result_of_mem (by simp only [after]; unfold leastInt greatestInt; omega)
  rw [Draw.Line.step_eq, twice]
  have across := range.goAcross_after nonneg lt
  have down := range.goDown_halfway nonneg lt
  simp only [bind, Except.bind, across, down]

theorem x_eq_end_iff (s : Segment) (p : Int) : s.x + s.stepX * p = s.endX ↔ p = s.wide := by
  unfold stepX wide
  split <;> omega

theorem y_eq_end_iff (s : Segment) (q : Int) : s.y + s.stepY * q = s.endY ↔ q = s.high := by
  unfold stepY high
  split <;> omega

theorem across_length (s : Segment) : s.across s.length = s.wide := by
  unfold across
  split
  · exact length_of_flat ‹_›
  · rename_i steep
    rw [length_of_steep steep]
    exact nearestStep_self s.wide_nonneg (Int.le_of_lt (Int.not_le.mp steep))

theorem down_length (s : Segment) : s.down s.length = s.high := by
  unfold down
  split
  · rename_i flat
    rw [length_of_flat flat]
    exact nearestStep_self s.high_nonneg flat
  · exact length_of_steep ‹_›

/-- Along the longer side a line is at its end after the last step only. -/
theorem atEnd_after (s : Segment) (k : Int) : (s.after k).atEnd = decide (k = s.length) := by
  rw [Bool.eq_iff_iff]
  simp only [Draw.Line.atEnd, after, point, Bool.and_eq_true, beq_iff_eq, x_eq_end_iff, y_eq_end_iff,
    decide_eq_true_eq]
  constructor
  · rintro ⟨across, down⟩
    by_cases flat : s.high ≤ s.wide
    · rw [length_of_flat flat, ← across, Segment.across, if_pos flat]
    · rw [length_of_steep flat, ← down, Segment.down, if_neg flat]
  · rintro rfl
    exact ⟨across_length s, down_length s⟩

end Segment

namespace Draw.Line

/-- The points that a line is at on its way, one step after the other, until it is at its end. -/
inductive Visits : Line → List (Int × Int) → Prop
  | last {line : Line} (ends : line.atEnd = true) : Visits line [(line.x, line.y)]
  | next {line line' : Line} {points : List (Int × Int)} (goesOn : line.atEnd = false)
      (step : line.step = .ok line') (rest : Visits line' points) :
      Visits line ((line.x, line.y) :: points)

end Draw.Line

namespace Segment

variable {s : Segment}

/-- The points of a line, both ends with it. -/
def points (s : Segment) : List (Int × Int) :=
  (List.range (s.length + 1)).map fun k : Nat => s.point k

theorem length_points (s : Segment) : s.points.length = s.length + 1 := by
  rw [points, List.length_map, List.length_range]

theorem InRange.visits_after (range : s.InRange) {k rest : Nat} (sum : k + rest = s.length) :
    (s.after k).Visits ((List.range' k (rest + 1)).map fun k : Nat => s.point k) := by
  induction rest generalizing k with
  | zero => exact .last (by rw [atEnd_after, decide_eq_true]; omega)
  | succ rest ih =>
    rw [List.range'_succ, List.map_cons]
    refine .next ?_ (range.step_after (by omega) (by omega)) ?_
    · rw [atEnd_after, decide_eq_false]
      omega
    · exact ih (k := k + 1) (by omega)

theorem InRange.visits (range : s.InRange) : (s.after 0).Visits s.points := by
  rw [points, List.range_eq_range']
  exact range.visits_after (k := 0) (Nat.zero_add _)

end Segment

namespace Graphics

variable {g g' : Graphics} {drawing next : Draw Unit} {fit fit' : Prop}
  {region region' : Int → Int → Prop} {color : Int → Int → Except Fault UInt32} {x y : Int}

/-- The drawing comes back just where all its numbers fit and each pixel of a region can be painted,
and then has painted the region. -/
structure DrawsExactly (g : Graphics) (drawing : Draw Unit) (fit : Prop)
    (region : Int → Int → Prop) (color : Int → Int → Except Fault UInt32) : Prop where
  returns : (∃ g', drawing.run.run g = (.ok (), g')) ↔
    fit ∧ ∀ x y, region x y → Draw.Paintable g.target color x y
  paints : ∀ g', drawing.run.run g = (.ok (), g') → g.Paints region color g'

theorem paintable_of_size (size : g.target.size = g'.target.size) :
    Draw.Paintable g.target color x y ↔ Draw.Paintable g'.target color x y := by
  have width : (g.target.width : Int) = g'.target.width := congrArg Size.width size
  have height : (g.target.height : Int) = g'.target.height := congrArg Size.height size
  exact and_congr_right'
    (Image.reaches_of_size (Int.ofNat_inj.mp width) (Int.ofNat_inj.mp height))

theorem DrawsExactly.congr (exact : g.DrawsExactly drawing fit region color) (fits : fit' ↔ fit)
    (same : ∀ x y, region' x y ↔ region x y) : g.DrawsExactly drawing fit' region' color where
  returns := by
    rw [exact.returns, fits]
    simp only [same]
  paints g' ran := (exact.paints g' ran).congr same

/-- It makes no difference in which way the drawing is written down. -/
theorem DrawsExactly.of_run {drawing' : Draw Unit}
    (exact : g.DrawsExactly drawing' fit region color)
    (same : drawing.run.run g = drawing'.run.run g) : g.DrawsExactly drawing fit region color where
  returns := by rw [same, exact.returns]
  paints g' ran := exact.paints g' (same ▸ ran)

theorem drawsExactly_nothing (none : ∀ x y, ¬ region x y) :
    g.DrawsExactly (pure ()) True region color where
  returns := iff_of_true ⟨g, rfl⟩ ⟨trivial, fun x y inside => absurd inside (none x y)⟩
  paints g' ran := by
    cases ran
    exact paints_nothing g none

/-- Two drawings in turn, the second with the pen and on the sides that the first leaves. -/
theorem DrawsExactly.bind (first : g.DrawsExactly drawing fit region color)
    (second : ∀ g₁ : Graphics, g₁.pen = g.pen → g₁.target.size = g.target.size →
      g₁.DrawsExactly next fit' region' color) :
    g.DrawsExactly (do drawing; next) (fit ∧ fit') (fun x y => region x y ∨ region' x y)
      color where
  returns := by
    constructor
    · rintro ⟨g', ran⟩
      obtain ⟨_, g₁, ran₁, ran'⟩ := Draw.run_bind_eq_ok.mp ran
      have paints := first.paints g₁ ran₁
      obtain ⟨fits, paintable⟩ := first.returns.mp ⟨g₁, ran₁⟩
      obtain ⟨fits', paintable'⟩ := (second g₁ paints.pen paints.size).returns.mp ⟨g', ran'⟩
      refine ⟨⟨fits, fits'⟩, fun x y inside => ?_⟩
      rcases inside with once | again
      · exact paintable x y once
      · exact (paintable_of_size paints.size).mp (paintable' x y again)
    · rintro ⟨⟨fits, fits'⟩, paintable⟩
      obtain ⟨g₁, ran₁⟩ := first.returns.mpr ⟨fits, fun x y inside => paintable x y (.inl inside)⟩
      have paints := first.paints g₁ ran₁
      obtain ⟨g', ran'⟩ := (second g₁ paints.pen paints.size).returns.mpr
        ⟨fits', fun x y inside => (paintable_of_size paints.size).mpr (paintable x y (.inr inside))⟩
      exact ⟨g', Draw.run_bind_eq_ok.mpr ⟨(), g₁, ran₁, ran'⟩⟩
  paints g' ran := by
    obtain ⟨_, g₁, ran₁, ran'⟩ := Draw.run_bind_eq_ok.mp ran
    have paints := first.paints g₁ ran₁
    exact paints.union ((second g₁ paints.pen paints.size).paints g' ran')

end Graphics

namespace Draw

variable {g : Graphics}

theorem setPixel_exact {x y : Int} (holds : g.target.Holds x y) (c : UInt32) :
    g.DrawsExactly (setPixel x y c) True (fun u v => u = x ∧ v = y) (fun _ _ => .ok c) where
  returns := by
    simp only [setPixel_eq_ok, exists_and_left, exists_eq, and_true, true_and, paintable_ok]
    exact ⟨fun reaches u v here => here.1 ▸ here.2 ▸ reaches, fun all => all x y ⟨rfl, rfl⟩⟩
  paints g' ran := by
    obtain ⟨-, rfl⟩ := setPixel_eq_ok.mp ran
    exact Graphics.paints_set holds c

/-- A point that is plotted has the pen's colour if the clip has it. -/
theorem plot_exact (sound : g.Sound) (x y : Int) : g.DrawsExactly (plot x y) True
    (fun u v => g.pen.clip.Covers u v ∧ u = x ∧ v = y) (fun _ _ => .ok g.pen.color) := by
  have answered := Rect.contains_eq sound.crops.edged.right sound.crops.edged.bottom x y
  by_cases covers : g.pen.clip.Covers x y
  · have exact := setPixel_exact (sound.holds covers) g.pen.color
    refine (exact.congr Iff.rfl fun u v => ?_).of_run ?_
    · constructor
      · exact And.right
      · rintro ⟨rfl, rfl⟩
        exact ⟨covers, rfl, rfl⟩
    · simp only [plot, run_pen_bind, run_liftM_bind, answered, decide_eq_true covers, if_true]
  · refine (Graphics.drawsExactly_nothing ?_).of_run ?_
    · rintro u v ⟨inside, rfl, rfl⟩
      exact covers inside
    · simp only [plot, run_pen_bind, run_liftM_bind, answered, decide_eq_false covers,
        Bool.false_eq_true, if_false]

/-- The point is one of those on the way of a line, which are counted from `index` on; a dotted line
has those with an even number. -/
def Marks (dotted : Bool) (index : Nat) (points : List (Int × Int)) (x y : Int) : Prop :=
  ∃ i, points[i]? = some (x, y) ∧ (dotted = true → (index + i) % 2 = 0)

theorem marks_nil {dotted : Bool} {index : Nat} {x y : Int} : ¬ Marks dotted index [] x y :=
  nofun

theorem marks_cons {dotted : Bool} {index : Nat} {point : Int × Int} {points : List (Int × Int)}
    {x y : Int} : Marks dotted index (point :: points) x y ↔
      ((dotted = true → index % 2 = 0) ∧ x = point.1 ∧ y = point.2) ∨
        Marks dotted (index + 1) points x y := by
  constructor
  · rintro ⟨i, here, even⟩
    cases i with
    | zero =>
      cases here
      exact .inl ⟨even, rfl, rfl⟩
    | succ i => exact .inr ⟨i, here, fun dots => by have := even dots; omega⟩
  · rintro (⟨even, rfl, rfl⟩ | ⟨i, here, even⟩)
    · exact ⟨0, rfl, even⟩
    · exact ⟨i + 1, here, fun dots => by have := even dots; omega⟩

theorem mark_eq (dotted : Bool) (index : Nat) (line : Line) : mark dotted index line =
    if dotted = true → index % 2 = 0 then plot line.x line.y else pure () := by
  cases dotted <;> simp [mark]

theorem mark_exact (sound : g.Sound) (dotted : Bool) (index : Nat) (line : Line) :
    g.DrawsExactly (mark dotted index line) True (fun u v => g.pen.clip.Covers u v ∧
      (dotted = true → index % 2 = 0) ∧ u = line.x ∧ v = line.y) (fun _ _ => .ok g.pen.color) := by
  rw [mark_eq]
  split
  · rename_i drawn
    exact (plot_exact sound line.x line.y).congr Iff.rfl
      fun u v => and_congr_right' (and_iff_right drawn)
  · rename_i left
    exact Graphics.drawsExactly_nothing fun u v inside => left inside.2.1

theorem follow_of_end {dotted : Bool} {fuel index : Nat} {line : Line}
    (ends : line.atEnd = true) : follow dotted (fuel + 1) index line = mark dotted index line := by
  simp only [follow_succ, ends, if_true]
  exact bind_pure _

theorem follow_of_step {dotted : Bool} {fuel index : Nat} {line line' : Line}
    (goesOn : line.atEnd = false) (step : line.step = .ok line') :
    follow dotted (fuel + 1) index line = (do
      mark dotted index line
      follow dotted fuel (index + 1) line') := by
  simp only [follow_succ, goesOn, step, Bool.false_eq_true, if_false]
  rfl

/-- What is more than enough to get to the end makes no difference. -/
theorem Line.Visits.follow_eq {line : Line} {points : List (Int × Int)}
    (visits : line.Visits points) {dotted : Bool} {index fuel : Nat}
    (enough : points.length ≤ fuel) :
    follow dotted fuel index line = follow dotted points.length index line := by
  induction visits generalizing index fuel with
  | last ends =>
    obtain ⟨fuel, rfl⟩ := Nat.exists_eq_add_of_le' enough
    exact (follow_of_end ends).trans (follow_of_end ends).symm
  | @next line line' points goesOn step rest ih =>
    obtain ⟨fuel, rfl⟩ := Nat.exists_eq_add_of_le' (Nat.le_trans (Nat.le_add_left 1 _) enough)
    rw [follow_of_step goesOn step, ih (by simpa using enough), List.length_cons,
      follow_of_step goesOn step]

/-- Following a line that comes to its end plots the points on its way. -/
theorem Line.Visits.follow_exact {line : Line} {points : List (Int × Int)}
    (visits : line.Visits points) (sound : g.Sound) (dotted : Bool) (index : Nat) :
    g.DrawsExactly (follow dotted points.length index line) True
      (fun u v => g.pen.clip.Covers u v ∧ Marks dotted index points u v)
      (fun _ _ => .ok g.pen.color) := by
  induction visits generalizing g index with
  | @last line ends =>
    rw [List.length_singleton, follow_of_end ends]
    refine (mark_exact sound dotted index line).congr Iff.rfl fun u v => ?_
    rw [marks_cons, or_iff_left marks_nil]
  | @next line line' points goesOn step rest ih =>
    rw [List.length_cons, follow_of_step goesOn step]
    have whole := (mark_exact sound dotted index line).bind fun g₁ same size =>
      same ▸ ih (sound.of_size same size) (index + 1)
    refine whole.congr and_self_iff.symm fun u v => ?_
    rw [marks_cons, and_or_left]

end Draw

/-- Where a line given from the origin lies on the image. -/
def Pen.segment (pen : Pen) (x₁ y₁ x₂ y₂ : Int) : Segment :=
  ⟨x₁ + pen.originX, y₁ + pen.originY, x₂ + pen.originX, y₂ + pen.originY⟩

namespace Draw

variable {g : Graphics} {x₁ y₁ x₂ y₂ : Int}

theorem run_drawLine (range : (g.pen.segment x₁ y₁ x₂ y₂).InRange) :
    (drawLine x₁ y₁ x₂ y₂).run.run g =
      (follow (g.pen.stroke == .dotted)
        ((g.pen.segment x₁ y₁ x₂ y₂).wide + (g.pen.segment x₁ y₁ x₂ y₂).high + 1).toNat 0
          ((g.pen.segment x₁ y₁ x₂ y₂).after 0)).run.run g := by
  have x : Checked.add x₁ g.pen.originX = .ok _ := Checked.result_of_mem range.x
  have y : Checked.add y₁ g.pen.originY = .ok _ := Checked.result_of_mem range.y
  have endX : Checked.add x₂ g.pen.originX = .ok _ := Checked.result_of_mem range.endX
  have endY : Checked.add y₂ g.pen.originY = .ok _ := Checked.result_of_mem range.endY
  have start := range.start_eq
  simp only [Pen.segment] at start ⊢
  simp only [drawLine, run_pen_bind, run_liftM_bind, x, y, endX, endY, start]
  simp only [Segment.after, Int.sub_neg]

theorem marks_points {dotted : Bool} {s : Segment} {x y : Int} : Marks dotted 0 s.points x y ↔
    ∃ k : Nat, k ≤ s.length ∧ (dotted = true → k % 2 = 0) ∧ (x, y) = s.point k := by
  simp only [Marks, Segment.points, List.getElem?_map, Option.map_eq_some_iff,
    List.getElem?_eq_some_iff, List.length_range, List.getElem_range, Nat.zero_add]
  constructor
  · rintro ⟨i, ⟨_, ⟨lt, rfl⟩, here⟩, even⟩
    exact ⟨i, Nat.le_of_lt_succ lt, even, here.symm⟩
  · rintro ⟨k, le, even, here⟩
    exact ⟨k, ⟨k, ⟨Nat.lt_succ_of_le le, rfl⟩, here.symm⟩, even⟩

end Draw

/-- The pixels that a line gets: the points on its way that the clip has, and of a dotted line every
second. -/
def Pen.Traces (pen : Pen) (s : Segment) (x y : Int) : Prop :=
  pen.clip.Covers x y ∧
    ∃ k : Nat, k ≤ s.length ∧ (pen.stroke = .dotted → k % 2 = 0) ∧ (x, y) = s.point k

namespace Draw

variable {g : Graphics} {x₁ y₁ x₂ y₂ : Int} {s : Segment}

/-- A line is drawn with as many steps as it takes, and more would change nothing. -/
theorem run_follow (lies : s = g.pen.segment x₁ y₁ x₂ y₂) (range : s.InRange) {fuel : Nat}
    (more : s.length < fuel) :
    (follow (g.pen.stroke == .dotted) fuel 0 (s.after 0)).run.run g =
      (drawLine x₁ y₁ x₂ y₂).run.run g := by
  subst lies
  have length := Segment.length_points (g.pen.segment x₁ y₁ x₂ y₂)
  have long := Segment.length_eq (g.pen.segment x₁ y₁ x₂ y₂)
  have wide := Segment.wide_nonneg (g.pen.segment x₁ y₁ x₂ y₂)
  have high := Segment.high_nonneg (g.pen.segment x₁ y₁ x₂ y₂)
  rw [run_drawLine range]
  exact congrArg (fun drawing : Draw Unit => drawing.run.run g)
    ((range.visits.follow_eq (by omega)).trans (range.visits.follow_eq (by omega)).symm)

theorem drawLine_exact (sound : g.Sound) (lies : s = g.pen.segment x₁ y₁ x₂ y₂)
    (range : s.InRange) : g.DrawsExactly (drawLine x₁ y₁ x₂ y₂) True (g.pen.Traces s)
      (fun _ _ => .ok g.pen.color) := by
  have exact := range.visits.follow_exact sound (g.pen.stroke == .dotted) 0
  refine (exact.congr Iff.rfl fun x y => ?_).of_run (run_follow lies range ?_).symm
  · simp only [Pen.Traces, marks_points, beq_iff_eq]
  · rw [Segment.length_points]
    exact Nat.lt_succ_self _

end Draw

namespace Graphics

end Graphics

end Handset
