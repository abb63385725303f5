import Handset.Proofs.Fitting
import Handset.Proofs.Placement

/-! The shape of a screen that is fitted to the display with its shape kept. Each side is rounded on
its own at every step, but no step takes the two sides apart by more than a few pixels, unless it holds
one of them at the greatest integer. -/

namespace Handset

/-- The screen is shown in its shape, up to a few pixels. -/
def ScreenLayout.KeepsAspect (layout : ScreenLayout) : Prop :=
  |layout.placement.width * layout.height - layout.placement.height * layout.width| ≤
    4 * (layout.width + layout.height)

/-- The lengths of which a single leaves more than a pixel's accuracy. -/
def IsSide (n : ℕ) : Prop :=
  1 ≤ n ∧ n < 2 ^ 20

variable {n length denominator width height displayWidth displayHeight : ℕ} {x q : ℚ}

namespace IsSide

theorem isLength (side : IsSide n) : IsLength n :=
  ⟨side.1, side.2.le.trans (by norm_num)⟩

theorem one_le (side : IsSide n) : (1 : ℚ) ≤ n :=
  Nat.one_le_cast.mpr side.1

theorem le (side : IsSide n) : (n : ℚ) ≤ 2 ^ 20 := by
  exact_mod_cast side.2.le

theorem single_eq (side : IsSide n) : single n = n :=
  single_natCast (side.2.le.trans (by norm_num))

end IsSide

theorem isLength_greatest : IsLength 2147483647 :=
  ⟨by decide, by decide⟩

/-- The greatest integer has no single of its own. -/
theorem single_greatest : single (2147483647 : ℕ) = 2 ^ 31 := by
  obtain ⟨m, e, number, value⟩ := isLength_greatest.means
  have evaluated : (Floating.ofInt 2147483647 : Single) = .finite false 8388608 8 := by decide +kernel
  rw [Nat.cast_ofNat, evaluated] at number
  cases number
  rw [← value]
  norm_num

/-- What a few roundings make of a number of pixels. -/
theorem abs_sub_le_of_near {k : ℕ} (near : Format.single.Near k x q) (hx : 0 ≤ x) (hq : 0 ≤ q)
    (few : k ≤ 4) (small : k * q ≤ 2 ^ 22) : |x - q| ≤ 3 / 10 := by
  have few' : (k : ℚ) ≤ 4 := by exact_mod_cast few
  have kept : 1 - k / 2 ^ 24 ≤ Format.single.kept ^ k := by
    have bernoulli := one_add_mul_le_pow (show (-2 : ℚ) ≤ -(1 / 2 ^ 24) by norm_num) k
    rw [← sub_eq_add_neg] at bernoulli
    exact le_trans (le_of_eq (by ring)) bernoulli
  have low := (mul_le_mul_of_nonneg_right kept hq).trans near.low
  have high := (mul_le_mul_of_nonneg_right kept hx).trans near.high
  -- The number that is rounded is hardly more, so that it has as many pixels.
  have small' : k * x ≤ 2 ^ 22 * (1 + 1 / 1000) := by
    have scaled := mul_le_mul_of_nonneg_left high (Nat.cast_nonneg (α := ℚ) k)
    have lost : k * (k * x) ≤ 4 * (k * x) := by gcongr
    linarith
  rw [abs_le]
  constructor <;> linarith

theorem abs_floor_sub_le (near : |x - q| ≤ 3 / 10) : |(⌊x⌋ : ℚ) - q| ≤ 13 / 10 := by
  have low := Int.floor_le x
  have high := Int.lt_floor_add_one x
  rw [abs_le] at near ⊢
  constructor <;> linarith

/-- What is cut to an integer is no further away when it is brought into the range of the display. -/
theorem abs_clamp_sub_le {side : ℕ} (range : IsSide side) (near : |x - q| ≤ 3 / 10) (nonneg : 0 ≤ q)
    (le : q ≤ side) : |(clamp 1 side (min ⌊x⌋ greatestInt) : ℚ) - q| ≤ 13 / 10 := by
  have short := range.isLength
  have cut : clamp 1 side (min ⌊x⌋ greatestInt) = ⌊x⌋ ∨
      clamp 1 side (min ⌊x⌋ greatestInt) = 1 ∧ ⌊x⌋ < 1 ∨ (side : ℤ) + 1 ≤ ⌊x⌋ := by
    unfold IsLength at short
    unfold clamp greatestInt
    omega
  have low := Int.floor_le x
  have close := abs_le.mp near
  rcases cut with cut | ⟨cut, less⟩ | more
  · rw [cut]
    exact abs_floor_sub_le near
  · have less' : x < 1 := by exact_mod_cast Int.floor_lt.mp less
    rw [cut, abs_le, Int.cast_one]
    constructor <;> linarith
  · have more' : (side : ℚ) + 1 ≤ ⌊x⌋ := by exact_mod_cast more
    linarith

namespace Sizing

/-- A length in whole pixels, at least one. -/
def pixels (q : ℚ) : ℤ :=
  max ⌊q⌋ 1

theorem pixels_of_lt (less : q < 1) : pixels q = 1 :=
  max_eq_right (Int.floor_lt.mpr (by exact_mod_cast less)).le

theorem pixels_le (more : 1 ≤ q) : pixels q ≤ q := by
  rw [pixels, max_eq_left (Int.le_floor.mpr (by exact_mod_cast more))]
  exact Int.floor_le q

theorem lt_pixels_add_one (q : ℚ) : q < pixels q + 1 := by
  have floor : (⌊q⌋ : ℚ) ≤ pixels q := by exact_mod_cast le_max_left ..
  linarith [Int.lt_floor_add_one q]

theorem pixels_nonneg (q : ℚ) : (0 : ℚ) ≤ pixels q := by
  exact_mod_cast zero_le_one.trans (le_max_right ..)

/-- The length that is asked for is out of range. -/
def Held (percent length : Int) : Prop :=
  greatestInt < (length * percent).tdiv 100

theorem percentOf_of_held {percent length : Int} (held : Held percent length) :
    percentOf percent length = greatestInt := by
  unfold Held at held
  unfold percentOf clamp greatestInt at *
  omega

theorem percentOf_of_not_held {percent length : Int} (some : 0 ≤ length * percent)
    (free : ¬ Held percent length) :
    percentOf percent length = pixels (length * (percent / 100)) := by
  have floor : ⌊(length * (percent / 100) : ℚ)⌋ = (length * percent).tdiv 100 := by
    rw [Int.tdiv_eq_ediv_of_nonneg some, mul_div_assoc']
    exact_mod_cast Rat.floor_intCast_div_natCast (length * percent) 100
  unfold Held at free
  rw [pixels, floor]
  unfold percentOf clamp
  omega

/-- The side `d` is exact, and the other side `f` is as long as the shape `p` to `q` wants it, but for
rounding and the pixel that is begun. -/
structure Matches (d f : ℤ) (p q : ℚ) : Prop where
  one : 1 ≤ d
  nonneg : 0 ≤ f
  low : -(3 / 10) * p ≤ q * d - f * p
  high : q * d - f * p ≤ 13 / 10 * p

namespace Matches

variable {d f : ℤ} {p q ρ s : ℚ}

/-- A side without a pixel gets one. -/
theorem abs_lone_le (fitted : Matches d 0 p q) (hp : 0 < p) (hq : 0 < q) (nonneg : 0 ≤ s)
    (one : s ≤ 1) (shrunk : s * pixels (d * ρ) ≤ d) :
    |s * (pixels (d * ρ) * q - p)| ≤ 27 / 10 * (p + q) := by
  have high := fitted.high
  have wide := mul_nonneg (mul_nonneg nonneg (pixels_nonneg (d * ρ))) hq.le
  have across := mul_le_mul_of_nonneg_right shrunk hq.le
  have beside := mul_le_mul_of_nonneg_right one hp.le
  have beside' := mul_nonneg nonneg hp.le
  rw [abs_le]
  push_cast at high
  constructor <;> linarith

/-- Where less than a pixel of one side is asked for, there is little of the other. -/
theorem abs_small_le (fitted : Matches d f p q) (hp : 0 < p) (hq : 0 < q) (hρ : 0 ≤ ρ) (some : 1 ≤ f)
    (small : d * ρ < 1 ∨ f * ρ < 1) :
    |pixels (d * ρ) * q - pixels (f * ρ) * p| ≤ 27 / 10 * (p + q) := by
  have hd : (1 : ℚ) ≤ d := by exact_mod_cast fitted.one
  have hf : (1 : ℚ) ≤ f := by exact_mod_cast some
  have low := mul_le_mul_of_nonneg_right fitted.low hρ
  have high := mul_le_mul_of_nonneg_right fitted.high hρ
  have wide := mul_nonneg (pixels_nonneg (d * ρ)) hq.le
  have tall := mul_nonneg (pixels_nonneg (f * ρ)) hp.le
  have part : ρ * p ≤ p := by
    refine mul_le_of_le_one_left hp.le ?_
    rcases small with small | small
    · exact (le_mul_of_one_le_left hρ hd).trans small.le
    · exact (le_mul_of_one_le_left hρ hf).trans small.le
  rw [abs_le]
  rcases lt_or_ge (d * ρ) 1 with less | more <;> rcases lt_or_ge (f * ρ) 1 with less' | more'
  · rw [pixels_of_lt less, pixels_of_lt less', Int.cast_one]
    constructor <;> linarith
  · have cut := mul_le_mul_of_nonneg_right (pixels_le more') hp.le
    have less := mul_le_mul_of_nonneg_right less.le hq.le
    rw [pixels_of_lt ‹d * ρ < 1›, Int.cast_one]
    constructor <;> linarith
  · have cut := mul_le_mul_of_nonneg_right (pixels_le more) hq.le
    have less := mul_le_mul_of_nonneg_right less'.le hp.le
    rw [pixels_of_lt less', Int.cast_one]
    constructor <;> linarith
  · rcases small with small | small <;> linarith

/-- What is lost in fitting is enlarged, and brought down again with the whole. -/
theorem lost_le (fitted : Matches d f p q) (hp : 0 < p) (hq : 0 < q) (some : 1 ≤ f) (nonneg : 0 ≤ s)
    (one : s ≤ 1) (shrunk : s * pixels (d * ρ) ≤ d) : s * ρ * p ≤ p + 10 / 7 * q := by
  have shape : 7 / 10 * p ≤ q * d := by
    have hf : (1 : ℚ) ≤ f := by exact_mod_cast some
    have whole := mul_le_mul_of_nonneg_right hf hp.le
    linarith [fitted.low]
  have shrunk' : s * (d * ρ) ≤ d + 1 := by
    have rest := mul_le_mul_of_nonneg_left (lt_pixels_add_one (d * ρ)).le nonneg
    linarith
  rcases le_total (s * ρ) 1 with less | more
  · have less := mul_le_mul_of_nonneg_right less hp.le
    linarith
  · have shape := mul_le_mul_of_nonneg_left shape (sub_nonneg.mpr more)
    have shrunk := mul_le_mul_of_nonneg_right shrunk' hq.le
    linarith

theorem abs_large_le (fitted : Matches d f p q) (hp : 0 < p) (hq : 0 < q) (hρ : 0 ≤ ρ) (some : 1 ≤ f)
    (nonneg : 0 ≤ s) (one : s ≤ 1) (shrunk : s * pixels (d * ρ) ≤ d) (large : 1 ≤ d * ρ)
    (large' : 1 ≤ f * ρ) : |s * (pixels (d * ρ) * q - pixels (f * ρ) * p)| ≤ 27 / 10 * (p + q) := by
  have lost := fitted.lost_le hp hq some nonneg one shrunk
  have low := mul_le_mul_of_nonneg_right fitted.low hρ
  have high := mul_le_mul_of_nonneg_right fitted.high hρ
  have wide := mul_le_mul_of_nonneg_right (pixels_le large) hq.le
  have wide' := mul_le_mul_of_nonneg_right (lt_pixels_add_one (d * ρ)).le hq.le
  have tall := mul_le_mul_of_nonneg_right (pixels_le large') hp.le
  have tall' := mul_le_mul_of_nonneg_right (lt_pixels_add_one (f * ρ)).le hp.le
  have most : pixels (d * ρ) * q - pixels (f * ρ) * p ≤ 13 / 10 * (ρ * p) + p := by linarith
  have least : -(3 / 10) * (ρ * p) - q ≤ pixels (d * ρ) * q - pixels (f * ρ) * p := by linarith
  have most := mul_le_mul_of_nonneg_left most nonneg
  have least := mul_le_mul_of_nonneg_left least nonneg
  have beside := mul_le_mul_of_nonneg_right one hp.le
  have beside' := mul_le_mul_of_nonneg_right one hq.le
  rw [abs_le]
  constructor <;> linarith

/-- Sides that match are enlarged, and brought down to at most the exact one. What they lack then is in
proportion to the shape. -/
theorem abs_enlarged_le (fitted : Matches d f p q) (hp : 0 < p) (hq : 0 < q) (hρ : 0 ≤ ρ)
    (nonneg : 0 ≤ s) (one : s ≤ 1) (shrunk : s * pixels (d * ρ) ≤ d) :
    |s * (pixels (d * ρ) * q - pixels (f * ρ) * p)| ≤ 27 / 10 * (p + q) := by
  rcases fitted.nonneg.eq_or_lt with rfl | some
  · rw [pixels_of_lt (by norm_num : ((0 : ℤ) : ℚ) * ρ < 1), Int.cast_one, one_mul]
    exact fitted.abs_lone_le hp hq nonneg one shrunk
  by_cases large : 1 ≤ d * ρ ∧ 1 ≤ f * ρ
  · exact fitted.abs_large_le hp hq hρ some nonneg one shrunk large.1 large.2
  · have small : d * ρ < 1 ∨ f * ρ < 1 := by
      rw [not_and_or, not_le, not_le] at large
      exact large
    rw [abs_mul, abs_of_nonneg nonneg]
    exact (mul_le_of_le_one_left (abs_nonneg _) one).trans (fitted.abs_small_le hp hq hρ some small)

end Matches

/-- The factor that brings both sides down to the display, if they are larger. -/
def shrink (width height displayWidth displayHeight : ℚ) : ℚ :=
  min 1 (min (displayWidth / width) (displayHeight / height))

section Shrink

variable {a b d e : ℚ}

theorem shrink_nonneg (ha : 0 < a) (hb : 0 < b) (hd : 0 ≤ d) (he : 0 ≤ e) : 0 ≤ shrink a b d e :=
  le_min zero_le_one (le_min (by positivity) (by positivity))

theorem shrink_le_one (a b d e : ℚ) : shrink a b d e ≤ 1 :=
  min_le_left ..

theorem shrink_mul_width_le (ha : 0 < a) : shrink a b d e * a ≤ d :=
  (le_div_iff₀ ha).mp ((min_le_right _ _).trans (min_le_left _ _))

theorem shrink_mul_height_le (hb : 0 < b) : shrink a b d e * b ≤ e :=
  (le_div_iff₀ hb).mp ((min_le_right _ _).trans (min_le_right _ _))

end Shrink

/-- One side of the display divided by the same side of the screen, in singles. -/
theorem near_quotient (side : IsSide n) (length : IsLength width) :
    2 ^ (-31 : ℤ) ≤ single (single n / single width) ∧
      Format.single.Near 2 (single (single n / single width)) (n / width) := by
  have one := length.one_le
  have low : (2 : ℚ) ^ (-31 : ℤ) ≤ single n / single width := by
    rw [le_div_iff₀ (by linarith), side.single_eq]
    have le := length.le
    have one := side.one_le
    norm_num at le ⊢
    linarith
  have inverse := length.near.inv (by linarith) length.pos
  have quotient := (Format.Near.refl Format.single (n : ℚ)).mul inverse (by positivity)
    (by positivity) (by positivity) (by positivity)
  rw [side.single_eq, ← div_eq_mul_inv, ← div_eq_mul_inv] at *
  exact ⟨zpow_le_single (by decide) low,
    (near_single ((zpow_le_zpow_right₀ one_le_two (by decide)).trans low)).trans quotient⟩

theorem near_factor (hw : IsLength width) (hh : IsLength height) (hdw : IsSide displayWidth)
    (hdh : IsSide displayHeight) (spills : displayWidth < width ∨ displayHeight < height) :
    2 ^ (-31 : ℤ) ≤ factor width height displayWidth displayHeight ∧
      Format.single.Near 2 (factor width height displayWidth displayHeight)
        (shrink width height displayWidth displayHeight) := by
  have across := near_quotient hdw hw
  have down := near_quotient hdh hh
  have less : min ((displayWidth : ℚ) / width) (displayHeight / height) ≤ 1 := by
    rcases spills with wide | high
    · exact (min_le_left _ _).trans ((div_le_one hw.pos).mpr (by exact_mod_cast wide.le))
    · exact (min_le_right _ _).trans ((div_le_one hh.pos).mpr (by exact_mod_cast high.le))
  rw [shrink, min_eq_right less]
  exact ⟨le_min across.1 down.1, across.2.min down.2⟩

/-- A side is brought down to the display by a factor that is rounded twice. -/
theorem abs_brought_sub_le {s : ℚ} (length : IsLength n) (side : IsSide displayWidth)
    (low : 2 ^ (-31 : ℤ) ≤ x) (near : Format.single.Near 2 x s) (nonneg : 0 ≤ s)
    (le : s * n ≤ displayWidth) :
    |(clamp 1 displayWidth (min ⌊single (single n * x)⌋ greatestInt) : ℚ) - s * n| ≤ 13 / 10 := by
  have some : (0 : ℚ) < 2 ^ (-31 : ℤ) := by positivity
  have product := length.near.mul near (single_nonneg _) length.pos.le (by linarith) nonneg
  have full : 2 ^ (-126 : ℤ) ≤ single n * x := by
    have least : (2 : ℚ) ^ (-126 : ℤ) ≤ 2 ^ (-31 : ℤ) := zpow_le_zpow_right₀ one_le_two (by decide)
    exact least.trans (low.trans (le_mul_of_one_le_left (by linarith) length.one_le))
  have brought := (near_single full).trans product
  rw [mul_comm s] at le ⊢
  have nonneg' : 0 ≤ n * s := mul_nonneg length.pos.le nonneg
  have close := abs_sub_le_of_near brought (single_nonneg _) nonneg' (by decide)
    (by push_cast; linarith [side.le])
  exact abs_clamp_sub_le side close nonneg' le

/-- Each side is brought down to the display to about a pixel. -/
theorem abs_shown_sub_le (hw : IsLength width) (hh : IsLength height) (hdw : IsSide displayWidth)
    (hdh : IsSide displayHeight) :
    |(clamp 1 displayWidth (shrunkSize width height displayWidth displayHeight).1 : ℚ) -
        shrink width height displayWidth displayHeight * width| ≤ 13 / 10 ∧
      |(clamp 1 displayHeight (shrunkSize width height displayWidth displayHeight).2 : ℚ) -
        shrink width height displayWidth displayHeight * height| ≤ 13 / 10 := by
  by_cases spills : displayWidth < width ∨ displayHeight < height
  · obtain ⟨low, near⟩ := near_factor hw hh hdw hdh spills
    have nonneg : 0 ≤ shrink width height displayWidth displayHeight :=
      shrink_nonneg hw.pos hh.pos (Nat.cast_nonneg _) (Nat.cast_nonneg _)
    rw [shrunkSize_eq hw hh hdw.isLength hdh.isLength spills]
    exact ⟨abs_brought_sub_le hw hdw low near nonneg (shrink_mul_width_le hw.pos),
      abs_brought_sub_le hh hdh low near nonneg (shrink_mul_height_le hh.pos)⟩
  · obtain ⟨across, down⟩ := not_or.mp spills
    have across' : (width : ℚ) ≤ displayWidth := by exact_mod_cast not_lt.mp across
    have down' : (height : ℚ) ≤ displayHeight := by exact_mod_cast not_lt.mp down
    have whole : shrink width height displayWidth displayHeight = 1 :=
      min_eq_left (le_min ((one_le_div₀ hw.pos).mpr across') ((one_le_div₀ hh.pos).mpr down'))
    have one := hw.1
    have one' := hh.1
    rw [shrunkSize_of_fits (by omega) (by omega), whole, clamp_of_mem (by omega),
      clamp_of_mem (by omega)]
    norm_num

theorem exists_proportion (hn : IsSide n) (hl : IsSide length) (hd : IsSide denominator) :
    ∃ t, 0 ≤ t ∧ Format.single.Near 2 t (n * length / denominator) ∧
      proportion n length denominator = min ⌊t⌋ greatestInt := by
  refine ⟨_, single_nonneg _, ?_, proportion_eq hn.isLength hl.isLength hd.isLength⟩
  rw [hn.single_eq, hl.single_eq, hd.single_eq]
  have one : (2 : ℚ) ^ (0 : ℤ) ≤ n * length := by
    rw [zpow_zero]
    exact one_le_mul_of_one_le_of_one_le hn.one_le hl.one_le
  have positive := hd.isLength.pos
  have first := near_single ((zpow_le_zpow_right₀ one_le_two (by decide)).trans one)
  have full : (2 : ℚ) ^ (-126 : ℤ) ≤ single (n * length) / denominator := by
    rw [le_div_iff₀ positive]
    have one := zpow_le_single (by decide) one
    have short := hd.le
    norm_num at one ⊢
    linarith
  have second := first.mul (Format.Near.refl Format.single (denominator : ℚ)⁻¹) (single_nonneg _)
    (by positivity) (by positivity) (by positivity)
  rw [← div_eq_mul_inv, ← div_eq_mul_inv] at second
  exact (near_single full).trans second

/-- A side that is fitted to another. -/
theorem matches_proportion (hn : IsSide n) (hl : IsSide length) (hd : IsSide denominator)
    (small : (n * length / denominator : ℚ) ≤ 2 ^ 21) :
    Matches length (proportion n length denominator) denominator n := by
  obtain ⟨t, nonneg, near, cut⟩ := exists_proportion hn hl hd
  have positive := hd.isLength.pos
  have close := abs_sub_le_of_near near nonneg (by positivity) (by decide)
    (by push_cast; linarith)
  have floor := abs_le.mp (abs_floor_sub_le close)
  have short : ⌊t⌋ ≤ greatestInt := by
    apply Int.floor_le_iff.mpr
    unfold greatestInt
    push_cast
    linarith [(abs_le.mp close).2]
  have part : (n * (length : ℤ) : ℚ) = n * length / denominator * denominator :=
    (div_mul_cancel₀ _ positive.ne').symm
  rw [cut, min_eq_left short]
  generalize (n * length / denominator : ℚ) = q at close floor part
  have low := mul_le_mul_of_nonneg_right floor.1 positive.le
  have high := mul_le_mul_of_nonneg_right (abs_le.mp close).2 positive.le
  have floor' := mul_le_mul_of_nonneg_right (Int.floor_le t) positive.le
  refine ⟨by exact_mod_cast hl.1, Int.floor_nonneg.mpr nonneg, ?_, ?_⟩ <;> rw [part] <;> linarith

/-- One side of the fitted size is that of the display, and the other matches it. -/
theorem matches_fittedSize {input : Sizing} (fit : input.scaleToFit = true)
    (keep : input.keepAspectRatio = true) (hw : IsSide width) (hh : IsSide height)
    (hdw : IsSide displayWidth) (hdh : IsSide displayHeight) :
    let fitted := input.fittedSize width height displayWidth displayHeight
    (fitted.1 = displayWidth ∧ Matches fitted.1 fitted.2 width height) ∨
      (fitted.2 = displayHeight ∧ Matches fitted.2 fitted.1 height width) := by
  obtain ⟨t, nonneg, near, cut⟩ := exists_proportion hh hdw hw
  have positive := hw.isLength.pos
  have positive' := hh.isLength.pos
  have kept : (3 / 4 : ℚ) ≤ Format.single.kept ^ 2 := by norm_num [Format.kept, Format.single]
  simp only [fittedSize, fit, keep, Bool.not_true, Bool.false_eq_true, if_false]
  split_ifs with exceeds
  · right
    have most : (displayHeight : ℚ) ≤ t := by
      rw [cut] at exceeds
      exact_mod_cast Int.le_floor.mp (exceeds.le.trans (min_le_left _ _))
    have fits : (3 / 4 : ℚ) * displayHeight ≤ height * displayWidth / width :=
      (mul_le_mul kept most (by positivity) (by positivity)).trans near.high
    have small : (width * displayHeight / height : ℚ) ≤ 2 ^ 21 := by
      rw [le_div_iff₀ positive] at fits
      rw [div_le_iff₀ positive']
      have wide := mul_le_mul_of_nonneg_left hdw.le positive'.le
      linarith
    exact ⟨rfl, matches_proportion hw hdh hh small⟩
  · left
    have short := hdh.2
    have least : t ≤ 2 ^ 20 := by
      have floor : ⌊t⌋ < 2 ^ 20 := by
        unfold greatestInt at cut
        omega
      exact_mod_cast (Int.floor_lt.mp floor).le
    have small : (height * displayWidth / width : ℚ) ≤ 2 ^ 21 := by
      have lost := mul_le_mul_of_nonneg_right kept
        (show (0 : ℚ) ≤ height * displayWidth / width by positivity)
      linarith [near.low]
    exact ⟨rfl, matches_proportion hh hdw hw small⟩

/-- What is held on both sides is brought down to a square. -/
theorem shrunkSize_greatest (hdw : IsSide displayWidth) (hdh : IsSide displayHeight) :
    shrunkSize greatestInt greatestInt displayWidth displayHeight =
      (min (displayWidth : ℤ) displayHeight, min (displayWidth : ℤ) displayHeight) := by
  have whole {n : ℕ} (hn : IsSide n) : single (n / 2 ^ 31) = n / 2 ^ 31 := by
    have holds : Format.single.Holds (n / 2 ^ 31 : ℚ) :=
      ⟨n, -31, hn.2.trans (by decide), by decide, by norm_num [div_eq_mul_inv]⟩
    exact holds.round_eq
  have side : IsSide (min displayWidth displayHeight) := by
    unfold IsSide at *
    omega
  have least : (min displayWidth displayHeight : ℕ) ≤ 2147483647 := side.isLength.2
  have factor : factor 2147483647 2147483647 displayWidth displayHeight =
      (min displayWidth displayHeight : ℕ) / 2 ^ 31 := by
    rw [Sizing.factor, single_greatest, hdw.single_eq, hdh.single_eq, whole hdw, whole hdh,
      min_div_div_right (by norm_num), Nat.cast_min]
  have spills : displayWidth < 2147483647 ∨ displayHeight < 2147483647 :=
    .inl (hdw.2.trans (by decide))
  have shrunk := shrunkSize_eq isLength_greatest isLength_greatest hdw.isLength hdh.isLength spills
  rw [factor, single_greatest, mul_div_cancel₀ _ (by norm_num), side.single_eq,
    Int.floor_natCast, min_eq_left (by unfold greatestInt; exact_mod_cast least)] at shrunk
  exact_mod_cast shrunk

theorem windowedHeight_mem {width : ℕ} (hw : IsSide width) :
    1 ≤ windowedHeight width ∧ windowedHeight width ≤ width := by
  have ratio : windowedRatio.Means (single (85 / 100)) := by
    have below : ((85 : ℕ) / (100 : ℕ) * 2 ^ (0 : ℤ) : ℚ) < Format.single.limit :=
      lt_limit_single (by norm_num)
    have means := Floating.means_nearest Format.whole_single (by decide) below
    simpa [windowedRatio] using means
  have part : single (85 / 100) ≤ 1 := by
    simpa using single_le_zpow (e := 0) (by decide) (by norm_num) (by norm_num)
  have length := hw.isLength.means
  rw [hw.single_eq] at length
  have less : (width : ℚ) * single (85 / 100) ≤ width :=
    mul_le_of_le_one_right (Nat.cast_nonneg _) part
  have product := length.mul Format.whole_single ratio
    (lt_limit_single (less.trans (hw.le.trans (by norm_num))))
  have rounded := single_mono (mul_nonneg (Nat.cast_nonneg _) (single_nonneg _)) less
  rw [hw.single_eq] at rounded
  have floor : ⌊single (width * single (85 / 100)) + 1 / 2⌋ ≤ width := by
    apply Int.floor_le_iff.mpr
    push_cast
    linarith
  have one : (1 : ℤ) ≤ width := by exact_mod_cast hw.1
  have whole : (Floating.ofInt width * windowedRatio).round ≤ (width : ℤ) := by
    rw [product.round_eq]
    exact (min_le_left _ _).trans floor
  exact ⟨le_max_right .., max_le whole one⟩

/-- A screen of a given size that is to be fitted to the display with its shape kept. -/
structure Explicit (input : Sizing) : Prop where
  fit : input.scaleToFit = true
  keep : input.keepAspectRatio = true
  ratio : 1 ≤ input.scaleRatio
  displayWidth : 1 ≤ input.displayWidth ∧ input.displayWidth < 2 ^ 20
  displayHeight : 1 ≤ input.displayHeight ∧ input.displayHeight < 2 ^ 20
  virtualWidth : 1 ≤ input.virtualWidth ∧ input.virtualWidth < 2 ^ 20
  virtualHeight : 1 ≤ input.virtualHeight ∧ input.virtualHeight < 2 ^ 20
  bare : input.reservedHeight = 0

variable {input : Sizing} {layout : ScreenLayout}

theorem Explicit.exists_layout (explicit : input.Explicit) : ∃ layout, input.layout = .ok layout := by
  obtain ⟨-, -, -, -, down, across', down', bare⟩ := explicit
  refine (exists_layout_iff (by rw [bare]; decide) (by unfold greatestInt; omega)).mpr ⟨?_, ?_⟩
  · intro automatic
    omega
  · intro _ automatic
    omega

theorem Explicit.height_mem (explicit : input.Explicit) :
    1 ≤ windowedHeight input.virtualWidth ∧ windowedHeight input.virtualWidth < 2 ^ 20 := by
  obtain ⟨one, short⟩ := explicit.virtualWidth
  obtain ⟨w, same⟩ := Int.eq_ofNat_of_zero_le (show 0 ≤ input.virtualWidth by omega)
  rw [same] at short ⊢
  have side : IsSide w := ⟨by omega, by omega⟩
  have windowed := windowedHeight_mem side
  omega

theorem Explicit.sides (explicit : input.Explicit) (computed : input.layout = .ok layout) :
    layout.displayWidth = input.displayWidth ∧ layout.displayHeight = input.displayHeight ∧
      layout.width = input.virtualWidth ∧ (1 ≤ layout.height ∧ layout.height < 2 ^ 20) ∧
        input.room = input.displayHeight := by
  have windowed := explicit.height_mem
  obtain ⟨-, -, -, across, down, across', down', bare⟩ := explicit
  obtain ⟨rest, beside, computed⟩ := Checked.bind_eq_ok.mp computed
  obtain ⟨sides, virtual, computed⟩ := Checked.bind_eq_ok.mp computed
  have given : input.virtualSize (max input.displayWidth 1) (max rest 1) =
      .ok (input.virtualWidth, input.virtualHeight) := by
    simp only [virtualSize, Int.not_lt.mpr (show 0 ≤ input.virtualWidth by omega),
      Int.not_lt.mpr (show 0 ≤ input.virtualHeight by omega), and_self, if_false]
    rfl
  rw [given] at virtual
  cases virtual
  cases computed
  have same : max input.virtualWidth 1 = input.virtualWidth := max_eq_left across'.1
  dsimp only
  rw [same]
  refine ⟨max_eq_left across.1, max_eq_left down.1, rfl, ?_, by unfold room; omega⟩
  split_ifs
  · omega
  · exact windowed

theorem Explicit.exists_sides (explicit : input.Explicit) (computed : input.layout = .ok layout) :
    ∃ dw dh w h : ℕ, (IsSide dw ∧ IsSide dh ∧ IsSide w ∧ IsSide h) ∧ layout.displayWidth = dw ∧
      layout.displayHeight = dh ∧ layout.width = w ∧ layout.height = h ∧ input.room = dh := by
  obtain ⟨across, down, across', down', room⟩ := explicit.sides computed
  have wide := explicit.displayWidth
  have high := explicit.displayHeight
  have wide' := explicit.virtualWidth
  rw [← across] at wide
  rw [← down] at high
  rw [← across'] at wide'
  rw [← down] at room
  refine ⟨layout.displayWidth.toNat, layout.displayHeight.toNat, layout.width.toNat,
    layout.height.toNat, ?_, ?_⟩
  · unfold IsSide
    omega
  · omega

theorem Explicit.fits (explicit : input.Explicit) (computed : input.layout = .ok layout) :
    layout.Fits := by
  have wide := explicit.displayWidth
  have high := explicit.displayHeight
  exact fits_layout (by unfold greatestInt; omega) (by unfold greatestInt; omega) computed

/-- The size that fits the display. -/
def fitted (input : Sizing) (layout : ScreenLayout) : Int × Int :=
  input.fittedSize layout.width layout.height layout.displayWidth input.room

/-- The size that is asked for, and brought down to the display. -/
def asked (input : Sizing) (layout : ScreenLayout) : Int × Int :=
  (percentOf input.scaleRatio (input.fitted layout).1,
    percentOf input.scaleRatio (input.fitted layout).2)

theorem shownSize_eq (input : Sizing) (layout : ScreenLayout) :
    input.shownSize layout = shrunkSize (input.asked layout).1 (input.asked layout).2
      layout.displayWidth layout.displayHeight :=
  rfl

theorem asked_pos (input : Sizing) (layout : ScreenLayout) :
    (0 : ℚ) < (input.asked layout).1 ∧ (0 : ℚ) < (input.asked layout).2 := by
  constructor <;> exact_mod_cast (percentOf_mem ..).1

/-- How far the size that is asked for is from the shape of the screen, by the time it is brought down
to the display without any rounding. -/
def distortion (input : Sizing) (layout : ScreenLayout) : ℚ :=
  shrink (input.asked layout).1 (input.asked layout).2 layout.displayWidth layout.displayHeight *
    |((input.asked layout).1 * layout.height - (input.asked layout).2 * layout.width : ℚ)|

theorem Explicit.abs_aspect_sub_le (explicit : input.Explicit)
    (computed : input.layout = .ok layout) :
    |(|layout.placement.width * layout.height - layout.placement.height * layout.width| : ℚ) -
        input.distortion layout| ≤ 13 / 10 * (layout.width + layout.height) := by
  obtain ⟨dw, dh, w, h, ⟨hdw, hdh, hw, hh⟩, across, down, across', down', room⟩ :=
    explicit.exists_sides computed
  have wide : 1 ≤ (input.asked layout).1 ∧ (input.asked layout).1 ≤ greatestInt := percentOf_mem ..
  have high : 1 ≤ (input.asked layout).2 ∧ (input.asked layout).2 ≤ greatestInt := percentOf_mem ..
  rw [placement_layout computed, distortion, shownSize_eq, across, down, across', down']
  generalize input.asked layout = size at wide high ⊢
  obtain ⟨a, b⟩ := size
  dsimp only [place] at wide high ⊢
  lift a to ℕ using by omega
  lift b to ℕ using by omega
  rw [← isLength_iff] at wide high
  obtain ⟨first, second⟩ := abs_shown_sub_le wide high hdw hdh
  simp only [Int.cast_natCast]
  have nonneg : 0 ≤ shrink a b dw dh :=
    shrink_nonneg wide.pos high.pos (Nat.cast_nonneg _) (Nat.cast_nonneg _)
  generalize shrink a b dw dh = s at first second nonneg ⊢
  generalize clamp 1 dw (shrunkSize a b dw dh).1 = x at first ⊢
  generalize clamp 1 dh (shrunkSize a b dw dh).2 = y at second ⊢
  have split : (x * h - y * w : ℚ) - s * (a * h - b * w) = (x - s * a) * h - (y - s * b) * w := by
    ring
  calc |(|(x * h - y * w : ℚ)| - s * |(a * h - b * w : ℚ)|)|
      = |(|(x * h - y * w : ℚ)| - |s * (a * h - b * w : ℚ)|)| := by
        rw [abs_mul, abs_of_nonneg nonneg]
    _ ≤ |(x * h - y * w : ℚ) - s * (a * h - b * w)| := abs_abs_sub_abs_le_abs_sub ..
    _ ≤ |(x - s * a) * h| + |(y - s * b) * w| := by
        rw [split]
        exact abs_sub ..
    _ ≤ 13 / 10 * h + 13 / 10 * w := by
        rw [abs_mul, abs_mul, Nat.abs_cast, Nat.abs_cast]
        gcongr
    _ = 13 / 10 * (w + h) := by ring

theorem Explicit.matches_fitted (explicit : input.Explicit) (computed : input.layout = .ok layout) :
    ((input.fitted layout).1 = layout.displayWidth ∧
        Matches (input.fitted layout).1 (input.fitted layout).2 layout.width layout.height) ∨
      ((input.fitted layout).2 = layout.displayHeight ∧
        Matches (input.fitted layout).2 (input.fitted layout).1 layout.height layout.width) := by
  obtain ⟨dw, dh, w, h, ⟨hdw, hdh, hw, hh⟩, across, down, across', down', room⟩ :=
    explicit.exists_sides computed
  rw [fitted, across, down, across', down', room]
  exact matches_fittedSize explicit.fit explicit.keep hw hh hdw hdh

/-- The size that is asked for, as far as it is in range. -/
theorem Explicit.asked_eq (explicit : input.Explicit) (computed : input.layout = .ok layout)
    (free : ¬ Held input.scaleRatio (input.fitted layout).1)
    (free' : ¬ Held input.scaleRatio (input.fitted layout).2) :
    input.asked layout = (pixels ((input.fitted layout).1 * (input.scaleRatio / 100)),
      pixels ((input.fitted layout).2 * (input.scaleRatio / 100))) := by
  have ratio := explicit.ratio
  have nonneg : 0 ≤ (input.fitted layout).1 ∧ 0 ≤ (input.fitted layout).2 := by
    rcases explicit.matches_fitted computed with ⟨-, matched⟩ | ⟨-, matched⟩
    · exact ⟨zero_le_one.trans matched.one, matched.nonneg⟩
    · exact ⟨matched.nonneg, zero_le_one.trans matched.one⟩
  exact Prod.ext (percentOf_of_not_held (mul_nonneg nonneg.1 (by omega)) free)
    (percentOf_of_not_held (mul_nonneg nonneg.2 (by omega)) free')

/-- Nothing that is enlarged within the range loses its shape. -/
theorem Explicit.distortion_le (explicit : input.Explicit) (computed : input.layout = .ok layout)
    (free : ¬ Held input.scaleRatio (input.fitted layout).1)
    (free' : ¬ Held input.scaleRatio (input.fitted layout).2) :
    input.distortion layout ≤ 27 / 10 * (layout.width + layout.height) := by
  have matched := explicit.matches_fitted computed
  have sides := explicit.asked_eq computed free free'
  obtain ⟨wide, high⟩ := asked_pos input layout
  have part : (0 : ℚ) ≤ input.scaleRatio / 100 := by
    have ratio : (1 : ℚ) ≤ input.scaleRatio := by exact_mod_cast explicit.ratio
    linarith
  have dims := explicit.fits computed
  have width : (0 : ℚ) < layout.width := by exact_mod_cast dims.width
  have height : (0 : ℚ) < layout.height := by exact_mod_cast dims.height
  have across : (0 : ℚ) < layout.displayWidth := by exact_mod_cast dims.displayWidth
  have down : (0 : ℚ) < layout.displayHeight := by exact_mod_cast dims.displayHeight
  have nonneg := shrink_nonneg wide high across.le down.le
  have one := shrink_le_one (input.asked layout).1 (input.asked layout).2 layout.displayWidth
    layout.displayHeight
  have within := shrink_mul_width_le (b := (input.asked layout).2) (d := layout.displayWidth)
    (e := layout.displayHeight) wide
  have within' := shrink_mul_height_le (a := (input.asked layout).1) (d := layout.displayWidth)
    (e := layout.displayHeight) high
  rw [distortion, ← abs_of_nonneg nonneg, ← abs_mul]
  generalize shrink (input.asked layout).1 (input.asked layout).2 layout.displayWidth
    layout.displayHeight = s at *
  rw [sides] at within within' ⊢
  rcases matched with ⟨exact, matched⟩ | ⟨exact, matched⟩
  · rw [← exact] at within
    exact matched.abs_enlarged_le width height part nonneg one within
  · rw [← exact] at within'
    rw [← abs_neg, ← mul_neg, neg_sub, add_comm]
    exact matched.abs_enlarged_le height width part nonneg one within'

theorem Explicit.placement_of_held (explicit : input.Explicit) (computed : input.layout = .ok layout)
    (held : Held input.scaleRatio (input.fitted layout).1)
    (held' : Held input.scaleRatio (input.fitted layout).2) :
    layout.placement.width = min layout.displayWidth layout.displayHeight ∧
      layout.placement.height = min layout.displayWidth layout.displayHeight := by
  obtain ⟨dw, dh, w, h, ⟨hdw, hdh, -, -⟩, across, down, -⟩ := explicit.exists_sides computed
  rw [placement_layout computed, shownSize_eq, asked, percentOf_of_held held,
    percentOf_of_held held', across, down, shrunkSize_greatest hdw hdh]
  have one := hdw.1
  have one' := hdh.1
  dsimp only [place, clamp]
  omega

/-- The shape is kept as long as both sides that are asked for are in range. As soon as both are held
at the greatest integer, the screen is shown as a square, and keeps its shape only if it is one, or so
small on the display that the difference is a matter of pixels. In all cases the shape is kept or lost
with the shape that is asked for. -/
theorem keepsAspect_by_held (explicit : input.Explicit) :
    ∃ layout, input.layout = .ok layout ∧
      (¬ Held input.scaleRatio (input.fitted layout).1 →
        ¬ Held input.scaleRatio (input.fitted layout).2 → layout.KeepsAspect) ∧
      (Held input.scaleRatio (input.fitted layout).1 →
        Held input.scaleRatio (input.fitted layout).2 →
        (layout.KeepsAspect ↔
          min layout.displayWidth layout.displayHeight * |layout.height - layout.width| ≤
            4 * (layout.width + layout.height))) ∧
      (input.distortion layout ≤ 27 / 10 * (layout.width + layout.height) → layout.KeepsAspect) ∧
      (layout.KeepsAspect → input.distortion layout ≤ 53 / 10 * (layout.width + layout.height)) := by
  obtain ⟨layout, computed⟩ := explicit.exists_layout
  have close := abs_le.mp (explicit.abs_aspect_sub_le computed)
  have kept : layout.KeepsAspect ↔
      (|layout.placement.width * layout.height - layout.placement.height * layout.width| : ℚ) ≤
        4 * (layout.width + layout.height) := by
    unfold ScreenLayout.KeepsAspect
    exact_mod_cast Iff.rfl
  have small (le : input.distortion layout ≤ 27 / 10 * (layout.width + layout.height)) :
      layout.KeepsAspect := kept.mpr (by linarith)
  refine ⟨layout, computed, fun free free' => ?_, fun held held' => ?_, small, fun keeps => ?_⟩
  · exact small (explicit.distortion_le computed free free')
  · obtain ⟨wide, high⟩ := explicit.placement_of_held computed held held'
    obtain ⟨dw, dh, w, h, -, across, down, -⟩ := explicit.exists_sides computed
    have nonneg : 0 ≤ min layout.displayWidth layout.displayHeight := by omega
    rw [ScreenLayout.KeepsAspect, wide, high, ← mul_sub, abs_mul, abs_of_nonneg nonneg]
  · linarith [kept.mp keeps]

/-- A screen enlarged out of range on both sides. -/
def stretched : Sizing where
  displayWidth := 480
  displayHeight := 800
  virtualWidth := 240
  virtualHeight := 320
  fullscreen := true
  scaleRatio := greatestInt

theorem explicit_stretched : stretched.Explicit := by
  constructor <;> decide

theorem keepsAspect_by_held_stretched :
    (∃ layout, stretched.layout = .ok layout ∧ ¬ layout.KeepsAspect) ∧
      ∃ layout, ({ stretched with scaleRatio := 130 } : Sizing).layout = .ok layout ∧
        layout.KeepsAspect := by
  have modest : ({ stretched with scaleRatio := 130 } : Sizing).Explicit := by
    constructor <;> decide
  obtain ⟨layout, computed, -, held, -⟩ := keepsAspect_by_held explicit_stretched
  obtain ⟨layout', computed', free, -⟩ := keepsAspect_by_held modest
  refine ⟨⟨layout, computed, fun keeps => ?_⟩, layout', computed', ?_⟩
  · cases computed
    have small := (held (by unfold Held; decide +kernel) (by unfold Held; decide +kernel)).mp keeps
    exact absurd small (by decide +kernel)
  · cases computed'
    exact free (by unfold Held; decide +kernel) (by unfold Held; decide +kernel)

theorem aspect_lost :
    ¬ ∀ input : Sizing, input.Explicit → ∀ layout, input.layout = .ok layout →
      layout.KeepsAspect := by
  intro keeps
  have square : (⟨480, 800, 240, 320, 320, ⟨0, 0, 480, 480⟩⟩ : ScreenLayout).KeepsAspect :=
    keeps stretched explicit_stretched _ (by decide +kernel)
  exact absurd square (by unfold ScreenLayout.KeepsAspect; decide)

end Sizing

end Handset
