import Mathlib.Algebra.Order.Ring.Nat
import Mathlib.Data.List.Pairwise
import Handset.Limiter

/-! How many frames a limit lets through in a second. The time of a frame is rounded down to whole
milliseconds, so a limit holds as a rate just if it divides the second. -/

namespace Handset.Limiter

variable {limiter : Limiter} {budget : Nat}

/-- The earliest instant at which a caller can be admitted who comes now. -/
def freeSlot (limiter : Limiter) (budget now : Nat) : Nat :=
  limiter.lastFrame.elim now fun last => max now (last + budget)

def withFrame (limiter : Limiter) (frame : Nat) : Limiter :=
  { limiter with lastFrame := some frame }

@[simp] theorem lastFrame_withFrame (limiter : Limiter) (frame : Nat) :
    (limiter.withFrame frame).lastFrame = some frame := rfl

@[simp] theorem budget?_withFrame (limiter : Limiter) (frame : Nat) :
    (limiter.withFrame frame).budget? = limiter.budget? := rfl

theorem le_freeSlot (limiter : Limiter) (budget now : Nat) :
    now ≤ limiter.freeSlot budget now := by
  cases h : limiter.lastFrame <;> simp [freeSlot, h]

@[simp] theorem freeSlot_withFrame (limiter : Limiter) (frame now : Nat) :
    (limiter.withFrame frame).freeSlot budget now = max now (frame + budget) := rfl

theorem throttle_eq (h : limiter.budget? = some budget) (now : Nat) :
    limiter.throttle now =
      (limiter.freeSlot budget now, limiter.withFrame (limiter.freeSlot budget now)) := by
  unfold throttle reserve
  rw [h]
  cases hl : limiter.lastFrame with
  | none => simp [freeSlot, withFrame, hl]
  | some last =>
    by_cases hw : now < last + budget
    · simp [freeSlot, withFrame, hl, hw, Nat.max_eq_right hw.le]
    · simp [freeSlot, withFrame, hl, hw, Nat.max_eq_left (Nat.le_of_not_lt hw)]

/-- The instants at which callers are admitted who come at `calls`, in the order in which they get
the lock. No wait is interrupted. -/
def admissions (limiter : Limiter) : List Nat → List Nat
  | [] => []
  | call :: calls => (limiter.throttle call).1 :: (limiter.throttle call).2.admissions calls

@[simp] theorem length_admissions (limiter : Limiter) (calls : List Nat) :
    (limiter.admissions calls).length = calls.length := by
  induction calls generalizing limiter with
  | nil => rfl
  | cons call calls ih => simp [admissions, ih]

theorem admissions_cons (h : limiter.budget? = some budget) (call : Nat) (calls : List Nat) :
    limiter.admissions (call :: calls) =
      limiter.freeSlot budget call ::
        (limiter.withFrame (limiter.freeSlot budget call)).admissions calls := by
  simp only [admissions, throttle_eq h]

theorem admissions_after (h : limiter.budget? = some budget) (calls : List Nat) (last : Nat) :
    ∀ frame ∈ (limiter.withFrame last).admissions calls, last + budget ≤ frame := by
  induction calls generalizing last with
  | nil => simp [admissions]
  | cons call calls ih =>
    intro frame hframe
    have hslot : last + budget ≤ (limiter.withFrame last).freeSlot budget call := by simp
    rw [admissions_cons (by simpa using h)] at hframe
    rcases List.mem_cons.mp hframe with rfl | hlater
    · exact hslot
    · have := ih _ frame hlater
      omega

/-- Whatever the pattern of the calls, frames are at least a budget apart. -/
theorem admissions_spaced (h : limiter.budget? = some budget) (calls : List Nat) :
    (limiter.admissions calls).Pairwise fun earlier later => earlier + budget ≤ later := by
  induction calls generalizing limiter with
  | nil => exact .nil
  | cons call calls ih =>
    rw [admissions_cons h]
    exact .cons (admissions_after h calls _) (ih (by simpa using h))

theorem spaced_span {first stop : Nat} {frames : List Nat}
    (hspaced : (first :: frames).Pairwise fun earlier later => earlier + budget ≤ later)
    (hstop : ∀ frame ∈ first :: frames, frame < stop) :
    first + frames.length * budget < stop := by
  induction frames generalizing first with
  | nil => simpa using hstop
  | cons next frames ih =>
    obtain ⟨hnext, hrest⟩ := List.pairwise_cons.mp hspaced
    have hgap : first + budget ≤ next := hnext next List.mem_cons_self
    have := ih hrest fun frame hframe => hstop frame (.tail _ hframe)
    rw [List.length_cons, Nat.succ_mul]
    omega

/-- The frames of the second that begins at `start`. -/
def inSecond (start : Nat) (frames : List Nat) : List Nat :=
  frames.filter fun frame => start ≤ frame ∧ frame < start + 1000

/-- All frames of a second but one take a full budget each. -/
theorem inSecond_span (h : limiter.budget? = some budget) (calls : List Nat) (start : Nat) :
    ((inSecond start (limiter.admissions calls)).length - 1) * budget < 1000 := by
  have hmem : ∀ frame ∈ inSecond start (limiter.admissions calls),
      start ≤ frame ∧ frame < start + 1000 := by
    intro frame hframe
    simpa using (List.mem_filter.mp hframe).2
  have hspaced : (inSecond start (limiter.admissions calls)).Pairwise
      fun earlier later => earlier + budget ≤ later := (admissions_spaced h calls).filter _
  cases hframes : inSecond start (limiter.admissions calls) with
  | nil => simp
  | cons first frames =>
    rw [hframes] at hmem hspaced
    have hspan := spaced_span hspaced fun frame hframe => (hmem frame hframe).2
    have hfirst := (hmem first List.mem_cons_self).1
    rw [List.length_cons, Nat.add_sub_cancel]
    omega

/-- Callers who come together are admitted one budget after the other. -/
theorem admissions_together (h : limiter.budget? = some budget) (now count : Nat) :
    limiter.admissions (List.replicate count now) =
      (List.range count).map fun k => limiter.freeSlot budget now + k * budget := by
  induction count generalizing limiter with
  | zero => rfl
  | succ count ih =>
    have hnext : max now (limiter.freeSlot budget now + budget) =
        limiter.freeSlot budget now + budget :=
      Nat.max_eq_right (Nat.le_add_right_of_le (le_freeSlot ..))
    rw [List.replicate_succ, admissions_cons h, ih (by simpa using h), freeSlot_withFrame, hnext,
      List.range_succ_eq_map, List.map_cons, List.map_map, Nat.zero_mul, Nat.add_zero]
    congr 1
    apply List.map_congr_left
    intro k _
    rw [Function.comp_apply, Nat.succ_mul]
    omega

theorem inSecond_together (h : limiter.budget? = some budget) (now count : Nat)
    (hfit : (count - 1) * budget < 1000) :
    (inSecond (limiter.freeSlot budget now)
      (limiter.admissions (List.replicate count now))).length = count := by
  have hall : inSecond (limiter.freeSlot budget now)
      (limiter.admissions (List.replicate count now)) =
        limiter.admissions (List.replicate count now) := by
    apply List.filter_eq_self.mpr
    intro frame hframe
    rw [admissions_together h] at hframe
    obtain ⟨k, hk, rfl⟩ := List.mem_map.mp hframe
    have hk : k < count := List.mem_range.mp hk
    have : k * budget ≤ (count - 1) * budget := Nat.mul_le_mul_right _ (by omega)
    simp
    omega
  rw [hall, length_admissions, List.length_replicate]

theorem budget?_of_pos (h : 0 < limiter.fpsLimit) :
    limiter.budget? = some (1000 / limiter.fpsLimit) := by
  simp [budget?, h.ne']

/-- The most frames that a limit up to a thousand lets through in a second. -/
def mostInSecond (fpsLimit : Nat) : Nat := 999 / (1000 / fpsLimit) + 1

example : mostInSecond 30 = 31 := by decide

theorem inSecond_le_most (hpos : 0 < limiter.fpsLimit) (hle : limiter.fpsLimit ≤ 1000)
    (calls : List Nat) (start : Nat) :
    (inSecond start (limiter.admissions calls)).length ≤ mostInSecond limiter.fpsLimit := by
  have hspan := inSecond_span (budget?_of_pos hpos) calls start
  have hbudget : 0 < 1000 / limiter.fpsLimit := Nat.div_pos hle hpos
  have := (Nat.le_div_iff_mul_le hbudget).mpr (Nat.le_of_lt_succ hspan)
  unfold mostInSecond
  omega

theorem exists_most (hpos : 0 < limiter.fpsLimit) :
    ∃ calls start,
      (inSecond start (limiter.admissions calls)).length = mostInSecond limiter.fpsLimit := by
  have hfit : (mostInSecond limiter.fpsLimit - 1) * (1000 / limiter.fpsLimit) < 1000 :=
    Nat.lt_succ_of_le (Nat.div_mul_le_self 999 _)
  exact ⟨_, _, inSecond_together (budget?_of_pos hpos) 0 _ hfit⟩

/-- A limit of more than a thousand is none. -/
theorem admissions_unlimited (h : 1000 < limiter.fpsLimit) (now count : Nat) :
    limiter.admissions (List.replicate count now) =
      List.replicate count (limiter.freeSlot 0 now) := by
  have hbudget : limiter.budget? = some 0 := by
    rw [budget?_of_pos (by omega), Nat.div_eq_of_lt h]
  rw [admissions_together hbudget]
  simp [List.map_const']

/-- A limit is a maximum rate just if it divides the second. -/
theorem rate_iff_dvd (hpos : 0 < limiter.fpsLimit) :
    (∀ calls : List Nat, calls.Pairwise (· ≤ ·) → ∀ start,
      (inSecond start (limiter.admissions calls)).length ≤ limiter.fpsLimit) ↔
      limiter.fpsLimit ∣ 1000 := by
  have hbudget := budget?_of_pos hpos
  constructor
  · intro hrate
    by_contra hdvd
    have hfit : limiter.fpsLimit * (1000 / limiter.fpsLimit) < 1000 :=
      lt_of_le_of_ne (Nat.mul_div_le 1000 _) fun heq => hdvd ⟨_, heq.symm⟩
    have hfull := inSecond_together hbudget 0 (limiter.fpsLimit + 1) (by simpa using hfit)
    have := hrate (List.replicate (limiter.fpsLimit + 1) 0)
      (List.pairwise_replicate.mpr (.inr le_rfl)) (limiter.freeSlot (1000 / limiter.fpsLimit) 0)
    omega
  · rintro hdvd calls - start
    have hspan := inSecond_span hbudget calls start
    have hexact : limiter.fpsLimit * (1000 / limiter.fpsLimit) = 1000 := Nat.mul_div_cancel' hdvd
    have := lt_of_mul_lt_mul_right (hspan.trans_eq hexact.symm) (Nat.zero_le _)
    omega

theorem rate_iff_dvd_thirty :
    0 < 30 ∧ ¬ ∀ calls : List Nat, calls.Pairwise (· ≤ ·) → ∀ start,
      (inSecond start (Limiter.admissions { fpsLimit := 30 } calls)).length ≤ 30 := by
  refine ⟨by decide, fun hrate => ?_⟩
  have hpos : 0 < Limiter.fpsLimit { fpsLimit := 30 } := by decide
  have hdvd : 30 ∣ 1000 := (rate_iff_dvd hpos).mp hrate
  exact absurd hdvd (by decide)

/-- With a limit of two thousand, one caller more is admitted in the same instant. -/
theorem rate_exceeded :
    (List.replicate 2001 0).Pairwise (· ≤ ·) ∧
      2000 < (inSecond 0
        (Limiter.admissions { fpsLimit := 2000 } (List.replicate 2001 0))).length := by
  have hbudget : Limiter.budget? { fpsLimit := 2000 } = some 0 := rfl
  have hfull : (inSecond 0
      (Limiter.admissions { fpsLimit := 2000 } (List.replicate 2001 0))).length = 2001 :=
    inSecond_together hbudget 0 2001 (by decide)
  exact ⟨List.pairwise_replicate.mpr (.inr le_rfl), hfull.symm ▸ by decide⟩

end Handset.Limiter
