import Handset.Geometry.Layout
import Handset.Proofs.Values

/-! The sizes on the way to a layout, computed in singles, as rationals. -/

namespace Handset

/-- The nearest single, for numbers of a size that lengths, areas and their quotients have. -/
abbrev single : ℚ → ℚ :=
  Format.single.round

/-- The lengths that a layout computes with. -/
def IsLength (n : ℕ) : Prop :=
  1 ≤ n ∧ n ≤ 2147483647

variable {q : ℚ} {n length denominator width height displayWidth displayHeight : ℕ}

theorem isLength_iff : IsLength n ↔ 1 ≤ (n : ℤ) ∧ (n : ℤ) ≤ greatestInt := by
  unfold IsLength greatestInt
  omega

theorem lt_limit_single (le : q ≤ 2 ^ 100) : q < Format.single.limit := by
  have wide : (2 : ℚ) ^ 100 < Format.single.limit := by
    norm_num [Format.limit, Format.single]
  linarith

theorem single_nonneg (q : ℚ) : 0 ≤ single q :=
  Format.round_nonneg _ _

theorem single_mono {r : ℚ} (nonneg : 0 ≤ q) (le : q ≤ r) : single q ≤ single r :=
  Format.round_mono (by decide) nonneg le

theorem holds_zpow_single {e : ℤ} (least : -149 ≤ e) : Format.single.Holds (2 ^ e) :=
  Format.holds_zpow (by decide) least

theorem single_le_zpow {e : ℤ} (least : -149 ≤ e) (nonneg : 0 ≤ q) (le : q ≤ 2 ^ e) :
    single q ≤ 2 ^ e :=
  (holds_zpow_single least).round_le (by decide) nonneg le

theorem zpow_le_single {e : ℤ} (least : -149 ≤ e) (le : 2 ^ e ≤ q) : 2 ^ e ≤ single q :=
  (holds_zpow_single least).le_round (by decide) (by positivity) le

theorem single_natCast (short : n ≤ 2 ^ 24) : single n = n :=
  (Format.holds_natCast (by decide) (by decide) short).round_eq

theorem near_single (full : 2 ^ (-126 : ℤ) ≤ q) : Format.single.Near 1 (single q) q :=
  Format.near_round full

theorem means_single (range : n ≤ 2147483647) : (Floating.ofInt n : Single).Means (single n) := by
  have range' : (n : ℚ) ≤ 2147483647 := by exact_mod_cast range
  exact Floating.means_ofInt Format.whole_single (lt_limit_single (range'.trans (by norm_num)))

theorem single_le (range : n ≤ 2147483647) : single n ≤ 2 ^ 31 := by
  have range' : (n : ℚ) ≤ 2147483647 := by exact_mod_cast range
  exact_mod_cast single_le_zpow (e := 31) (by decide) (Nat.cast_nonneg _)
    (range'.trans (by norm_num))

namespace IsLength

theorem pos (length : IsLength n) : (0 : ℚ) < n :=
  Nat.cast_pos.mpr length.1

theorem one_le (length : IsLength n) : 1 ≤ single n := by
  have one : (2 : ℚ) ^ (0 : ℤ) ≤ n := by simpa using length.1
  simpa using zpow_le_single (by decide) one

theorem le (length : IsLength n) : single n ≤ 2 ^ 31 :=
  single_le length.2

theorem near (length : IsLength n) : Format.single.Near 1 (single n) n := by
  refine near_single ?_
  have one : (1 : ℚ) ≤ n := by exact_mod_cast length.1
  exact le_trans (by norm_num) one

theorem means (length : IsLength n) : (Floating.ofInt n : Single).Means (single n) :=
  means_single length.2

end IsLength

namespace Sizing

theorem proportion_eq (hn : IsLength n) (hl : IsLength length) (hd : IsLength denominator) :
    proportion n length denominator =
      min ⌊single (single (single n * single length) / single denominator)⌋ greatestInt := by
  have area : single n * single length ≤ 2 ^ 62 := by
    nlinarith [hn.le, hl.le, single_nonneg n, single_nonneg length]
  have product := hn.means.mul Format.whole_single hl.means (lt_limit_single (by linarith))
  have rounded : single (single n * single length) ≤ 2 ^ 62 := by
    exact_mod_cast single_le_zpow (e := 62) (by decide)
      (mul_nonneg (single_nonneg _) (single_nonneg _)) (by exact_mod_cast area)
  have above := hd.one_le
  have small : single (single n * single length) / single denominator ≤ 2 ^ 62 :=
    (div_le_self (single_nonneg _) above).trans rounded
  have quotient := product.div Format.whole_single hd.means (by linarith)
    (lt_limit_single (by linarith))
  exact quotient.truncate_eq

/-- The factor that brings both sides down to the display. -/
def factor (width height displayWidth displayHeight : ℕ) : ℚ :=
  min (single (single displayWidth / single width)) (single (single displayHeight / single height))

theorem means_factor (hw : IsLength width) (hh : IsLength height) (hdw : IsLength displayWidth)
    (hdh : IsLength displayHeight) :
    (Floating.lesser (.ofInt displayWidth / .ofInt width)
      (.ofInt displayHeight / .ofInt height) : Single).Means
      (factor width height displayWidth displayHeight) := by
  have across : single displayWidth / single width ≤ 2 ^ 31 :=
    (div_le_self (single_nonneg _) hw.one_le).trans hdw.le
  have down : single displayHeight / single height ≤ 2 ^ 31 :=
    (div_le_self (single_nonneg _) hh.one_le).trans hdh.le
  have above := hw.one_le
  have above' := hh.one_le
  exact (hdw.means.div Format.whole_single hw.means (by linarith)
    (lt_limit_single (by linarith))).lesser
    (hdh.means.div Format.whole_single hh.means (by linarith) (lt_limit_single (by linarith)))

theorem factor_nonneg (width height displayWidth displayHeight : ℕ) :
    0 ≤ factor width height displayWidth displayHeight :=
  le_min (single_nonneg _) (single_nonneg _)

theorem factor_le (hw : IsLength width) (hdw : IsLength displayWidth) (height displayHeight : ℕ) :
    factor width height displayWidth displayHeight ≤ 2 ^ 31 := by
  have across : single displayWidth / single width ≤ 2 ^ (31 : ℤ) :=
    (div_le_self (single_nonneg _) hw.one_le).trans (by exact_mod_cast hdw.le)
  exact_mod_cast (min_le_left _ _).trans
    (single_le_zpow (by decide) (div_nonneg (single_nonneg _) (single_nonneg _)) across)

theorem shrunkSize_of_fits {width height displayWidth displayHeight : Int}
    (across : width ≤ displayWidth) (down : height ≤ displayHeight) :
    shrunkSize width height displayWidth displayHeight = (width, height) :=
  if_neg (not_or.mpr ⟨Int.not_lt.mpr across, Int.not_lt.mpr down⟩)

/-- A size that spills over the display, on rationals. -/
theorem shrunkSize_eq (hw : IsLength width) (hh : IsLength height) (hdw : IsLength displayWidth)
    (hdh : IsLength displayHeight) (spills : displayWidth < width ∨ displayHeight < height) :
    shrunkSize width height displayWidth displayHeight =
      (min ⌊single (single width * factor width height displayWidth displayHeight)⌋ greatestInt,
        min ⌊single (single height * factor width height displayWidth displayHeight)⌋
          greatestInt) := by
  have means := means_factor hw hh hdw hdh
  have bound := factor_le hw hdw height displayHeight
  have nonneg := factor_nonneg width height displayWidth displayHeight
  have shrunk {n : ℕ} (hn : IsLength n) :
      single n * factor width height displayWidth displayHeight < Format.single.limit := by
    apply lt_limit_single
    nlinarith [hn.le, single_nonneg n]
  have spills' : (displayWidth : ℤ) < width ∨ (displayHeight : ℤ) < height := by
    exact_mod_cast spills
  rw [shrunkSize, if_pos spills']
  exact Prod.ext (hw.means.mul Format.whole_single means (shrunk hw)).truncate_eq
    (hh.means.mul Format.whole_single means (shrunk hh)).truncate_eq

end Sizing

end Handset
