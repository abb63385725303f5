import Handset.Proofs.Confinement
import Handset.Proofs.Fitting

/-! Images that are stretched over a place. The colour of each pixel is a sample, which reads the
pixel at a point or the four around it. Drawing comes to its end if every sample has a result and
every pixel that it sets is within reach: so it does for images that 32 bits can count, unless the
number of a pixel that lies behind all others is asked for. -/

namespace Handset

namespace Floating

variable {format : Format} {x y : Floating format} {a b : ℚ}

/-- The difference of a lesser number and a greater one is a number below zero. -/
theorem Means.sub_of_lt (hx : x.Means a) (hy : y.Means b) (lt : a < b) :
    ∃ (n : ℕ) (e : ℤ), x - y = nearest true n 1 e := by
  obtain ⟨m, e, rfl, rfl⟩ := hx
  obtain ⟨n, e', rfl, rfl⟩ := hy
  have left := cast_aligned (min_le_left e e') m
  have right := cast_aligned (min_le_right e e') n
  change ∃ (k : ℕ) (d : ℤ), (let low := min e e'
    let sum := signed false (m <<< (e - low).toNat) + signed true (n <<< (e' - low).toNat)
    if sum = 0 then zero (false && true) else nearest (sum < 0) sum.natAbs 1 low :
      Floating format) = _
  dsimp only
  rw [← left, ← right] at lt
  generalize min e e' = low at lt ⊢
  generalize m <<< (e - low).toNat = i at lt ⊢
  generalize n <<< (e' - low).toNat = j at lt ⊢
  have ordered : i < j := by exact_mod_cast lt_of_mul_lt_mul_right lt (by positivity)
  have below : signed false i + signed true j < 0 := by
    simp only [signed, if_true, Bool.false_eq_true, if_false]
    omega
  rw [if_neg below.ne, decide_eq_true below]
  exact ⟨_, _, rfl⟩

theorem leastInt_le_truncate (x : Floating format) : leastInt ≤ x.truncate := by
  cases x with
  | nan => exact (by decide : leastInt ≤ 0)
  | infinite negative =>
    cases negative with
    | false => exact (by decide : leastInt ≤ greatestInt)
    | true => exact Int.le_refl leastInt
  | finite negative m e => exact le_max_left ..

theorem truncate_zero : (zero false : Floating format).truncate = 0 := by
  simp [zero, truncate, signed, saturate, leastInt, greatestInt]

/-- What is below zero counts as zero. -/
theorem truncate_greater_finite (m : ℕ) (e : ℤ) :
    (greater (.finite true m e) (zero false) : Floating format).truncate = 0 := by
  have chosen : (greater (.finite true m e) (zero false) : Floating format) =
      if (finite true m e : Floating format).less (zero false) then zero false
      else .finite true m e := rfl
  rw [chosen]
  rcases Nat.eq_zero_or_pos m with rfl | positive
  · split_ifs
    · exact truncate_zero
    · simp [truncate, signed, saturate, leastInt, greatestInt]
  · have shifted : 0 < m <<< (e - min e format.least).toNat := by
      rw [Nat.shiftLeft_eq]
      positivity
    have less : (finite true m e : Floating format).less (zero false) = true := by
      simp only [Floating.less, zero, compare?]
      generalize m <<< (e - min e format.least).toNat = i at shifted ⊢
      simpa [signed, Int.compare_eq_lt] using shifted
    rw [if_pos less]
    exact truncate_zero

theorem truncate_greater_nearest (n : ℕ) (e : ℤ) :
    (greater (nearest true n 1 e) (zero false) : Floating format).truncate = 0 := by
  unfold nearest
  dsimp only
  split_ifs
  · exact truncate_greater_finite _ _
  · exact truncate_zero
  · exact truncate_greater_finite _ _
  · exact truncate_zero
  · exact truncate_greater_finite _ _

/-- Half of one. -/
theorem means_half : (nearest false 1 2 0 : Single).Means (2 ^ (-1 : ℤ)) := by
  have below : ((1 : ℕ) / (2 : ℕ) * 2 ^ (0 : ℤ) : ℚ) < Format.single.limit :=
    lt_limit_single (by norm_num)
  have means := means_nearest Format.whole_single two_pos below
  have half : ((1 : ℕ) / (2 : ℕ) * 2 ^ (0 : ℤ) : ℚ) = 2 ^ (-1 : ℤ) := by norm_num
  rwa [half, (holds_zpow_single (by decide)).round_eq] at means

/-- The greatest integer part that an offset is allowed to have here: nine eighths of `2 ^ 30`. -/
theorem holds_bound : Format.single.Holds 1207959552 :=
  ⟨9, 27, by decide, by decide, by norm_num⟩

end Floating

namespace Image

theorem truncate_before_le {x : Single} {a : ℚ} (means : x.Means a) (le : a ≤ 1207959552) :
    (before x).truncate ≤ 1207959552 := by
  rcases lt_or_ge a (2 ^ (-1 : ℤ)) with lt | half
  · obtain ⟨n, e, same⟩ := means.sub_of_lt Floating.means_half lt
    rw [before, same, Floating.truncate_greater_nearest]
    decide
  · have less : a - 2 ^ (-1 : ℤ) ≤ 1207959552 := by
      have : (0 : ℚ) ≤ 2 ^ (-1 : ℤ) := by positivity
      linarith
    have back := means.sub Format.whole_single Floating.means_half half
      (lt_limit_single (by linarith))
    have chosen : before x = x - Floating.nearest false 1 2 0 := by
      have nonneg := mt (back.less_iff Floating.means_zero).mp (not_lt.mpr back.nonneg)
      obtain ⟨m, e, same, -⟩ := back
      unfold before
      rw [same] at nonneg ⊢
      exact if_neg nonneg
    rw [chosen, back.truncate_eq]
    refine (min_le_left _ _).trans (Int.floor_le_iff.mpr ?_)
    have rounded := Floating.holds_bound.round_le (by decide) (sub_nonneg.mpr half) less
    push_cast
    linarith

variable {image : Image} {filter : Bool} {place : Rect} {dx dy : Int}

/-- The colour of an image at an offset into the place that it is stretched over: the sample at that
offset, by the ratio of the sides. -/
def stretched (image : Image) (filter : Bool) (place : Rect) (dx dy : Int) : Except Fault UInt32 :=
  image.sample filter (.ofInt dx * (.ofInt image.width / .ofInt place.width))
    (.ofInt dy * (.ofInt image.height / .ofInt place.height))

/-- The colour that the pixel at a point gets of an image that is stretched over a place. -/
def tint (image : Image) (filter : Bool) (place : Rect) (x y : Int) : Except Fault UInt32 :=
  image.stretched filter place (x - place.x) (y - place.y)

/-- 32 bits count the pixels of the image; if its samples are taken between pixels, a side has half
of the range at most, so that there is always a number for the next pixel. -/
structure Stretchable (image : Image) (filter : Bool) : Prop where
  small : image.Small
  wide : filter = true → image.width ≤ 1073741824
  high : filter = true → image.height ≤ 1073741824

theorem single_le_half {side : ℕ} (half : side ≤ 1073741824) : single side ≤ 2 ^ 30 := by
  have le : (side : ℚ) ≤ 2 ^ (30 : ℤ) := by exact_mod_cast half
  exact_mod_cast single_le_zpow (e := 30) (by decide) (Nat.cast_nonneg _) le

/-- The ratio of two sides is rounded up by less than an eighth. -/
theorem exists_ratio {side length : ℕ} (hs : IsLength side) (half : side ≤ 1073741824)
    (hl : IsLength length) :
    ∃ q, (Floating.ofInt side / Floating.ofInt length : Single).Means q ∧
      8 / 9 * q * single length ≤ single side := by
  have length_pos : 0 < single length := lt_of_lt_of_le one_pos hl.one_le
  have small : single side / single length ≤ 2 ^ 100 :=
    ((div_le_self (single_nonneg side) hl.one_le).trans (single_le_half half)).trans (by norm_num)
  have full : 2 ^ (-126 : ℤ) ≤ single side / single length := by
    rw [le_div_iff₀ length_pos]
    have := hl.le
    calc (2 : ℚ) ^ (-126 : ℤ) * single length ≤ 2 ^ (-126 : ℤ) * 2 ^ 31 := by gcongr
      _ ≤ 1 := by norm_num
      _ ≤ single side := hs.one_le
  have near := (near_single full).high
  have kept : (8 : ℚ) / 9 ≤ Format.single.kept := by norm_num [Format.kept, Format.single]
  rw [pow_one] at near
  refine ⟨_, hs.means.div Format.whole_single hl.means length_pos (lt_limit_single small), ?_⟩
  rw [← le_div_iff₀ length_pos]
  exact (mul_le_mul_of_nonneg_right kept (single_nonneg _)).trans near

/-- An offset into a place, in pixels of the image, is not far beyond the image. -/
theorem offset_le {side length k : ℕ} (hs : IsLength side) (half : side ≤ 1073741824)
    (hl : IsLength length) (inside : k < length) :
    ∃ a, (Floating.ofInt k * (Floating.ofInt side / Floating.ofInt length) : Single).Means a ∧
      a ≤ 1207959552 := by
  have short : k ≤ 2147483647 := (Nat.le_of_lt inside).trans hl.2
  obtain ⟨q, ratio, near⟩ := exists_ratio hs half hl
  have along : single k ≤ single length :=
    single_mono (Nat.cast_nonneg _) (by exact_mod_cast inside.le)
  have product : single k * q ≤ 1207959552 := by
    have := single_le_half half
    have := mul_le_mul_of_nonneg_right along ratio.nonneg
    linarith
  have below : single k * q < Format.single.limit := lt_limit_single (by linarith)
  exact ⟨_, (means_single short).mul Format.whole_single ratio below,
    Floating.holds_bound.round_le (by decide) (mul_nonneg (single_nonneg _) ratio.nonneg) product⟩

theorem exists_nearestSample (small : image.Small) (x y : Single) :
    ∃ c, image.nearestSample x y = .ok c := by
  unfold nearestSample
  rw [small.read_eq]
  exact ⟨_, rfl⟩

theorem exists_bilinearSample (small : image.Small) {x y : Single}
    (across : (before x).truncate ≤ 1207959552) (down : (before y).truncate ≤ 1207959552) :
    ∃ c, image.bilinearSample x y = .ok c := by
  have next (z : Single) (le : z.truncate ≤ 1207959552) :
      Checked.add z.truncate 1 = .ok (z.truncate + 1) := by
    have least := Floating.leastInt_le_truncate z
    exact Checked.result_of_mem (by unfold leastInt greatestInt at *; omega)
  simp only [bilinearSample, next _ across, next _ down, small.read_eq, bind, Except.bind]
  exact ⟨_, rfl⟩

/-- Every sample that is taken of the image has a result. -/
theorem Stretchable.exists_stretched (stretchable : image.Stretchable filter)
    (wide : place.width ≤ greatestInt) (high : place.height ≤ greatestInt)
    (across : 0 ≤ dx ∧ dx < place.width) (down : 0 ≤ dy ∧ dy < place.height) :
    ∃ c, image.stretched filter place dx dy = .ok c := by
  obtain ⟨small, width_le, height_le⟩ := stretchable
  unfold stretched sample
  cases filter with
  | false => exact exists_nearestSample small _ _
  | true =>
    have truncate_le {side : ℕ} {length k : Int} (pos : 0 < side) (half : side ≤ 1073741824)
        (le : length ≤ greatestInt) (inside : 0 ≤ k ∧ k < length) :
        (before (.ofInt k * (.ofInt side / .ofInt length))).truncate ≤ 1207959552 := by
      obtain ⟨k, rfl⟩ := Int.eq_ofNat_of_zero_le inside.1
      obtain ⟨length, rfl⟩ := Int.eq_ofNat_of_zero_le (inside.1.trans inside.2.le)
      unfold greatestInt at le
      have positive : IsLength side := ⟨pos, by omega⟩
      have longer : IsLength length := ⟨by omega, by omega⟩
      have short : k < length := by omega
      obtain ⟨a, means, bound⟩ := offset_le positive half longer short
      exact truncate_before_le means bound
    exact exists_bilinearSample small
      (truncate_le image.width_pos (width_le rfl) wide across)
      (truncate_le image.height_pos (height_le rfl) high down)

theorem Stretchable.exists_tint (stretchable : image.Stretchable filter)
    (wide : place.width ≤ greatestInt) (high : place.height ≤ greatestInt) {x y : Int}
    (covers : place.Covers x y) : ∃ c, image.tint filter place x y = .ok c := by
  obtain ⟨left, right, top, bottom⟩ := covers
  exact stretchable.exists_stretched wide high ⟨by omega, by omega⟩ ⟨by omega, by omega⟩

end Image

namespace Draw

variable {g g' : Graphics} {image : Image} {r : Rect} {filter : Bool}

/-- Nothing is drawn of an image that is stretched over no pixel. -/
theorem run_drawImageScaled_of_isEmpty (empty : r.isEmpty = true) :
    (drawImageScaled image r filter).run.run g = (.ok (), g) := by
  rw [drawImageScaled, if_pos empty]
  rfl

theorem drawImageScaled_eq_ok (visible : r.isEmpty = false) :
    (drawImageScaled image r filter).run.run g = (.ok (), g') ↔
      ((g.pen.Places r ∧ (g.pen.placed r).Meets g.pen.clip) ∧
        ∀ x y, ((g.pen.placed r).meet g.pen.clip).Covers x y →
          Paintable g.target (image.tint filter (g.pen.placed r)) x y) ∧
      g' = { g with
        target := g.target.setArea ((g.pen.placed r).meet g.pen.clip)
          (shade (image.tint filter (g.pen.placed r))) } := by
  simp only [drawImageScaled, visible, Bool.false_eq_true, if_false, run_pen_bind,
    run_liftM_bind_eq_ok, Pen.place_eq_ok, Rect.intersection_eq_ok]
  constructor
  · rintro ⟨_, ⟨places, rfl⟩, _, ⟨meets, rfl⟩, ran⟩
    obtain ⟨paintable, rfl⟩ := paintArea_eq_ok.mp ran
    exact ⟨⟨⟨places, meets⟩, paintable⟩, rfl⟩
  · rintro ⟨⟨⟨places, meets⟩, paintable⟩, rfl⟩
    exact ⟨_, ⟨places, rfl⟩, _, ⟨meets, rfl⟩, paintArea_eq_ok.mpr ⟨paintable, rfl⟩⟩

end Draw

end Handset
