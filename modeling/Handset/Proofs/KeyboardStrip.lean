import Handset.Proofs.Fitting
import Handset.Proofs.Placement

/-! The strip that is kept free for a keyboard. A screen is fitted to what is left above the strip, but
on a display in landscape it is shown in the middle of the whole display. -/

namespace Handset

/-- The screen is shown above the lowest `strip` rows of the display. -/
def ScreenLayout.Clears (layout : ScreenLayout) (strip : Int) : Prop :=
  ∃ bottom, layout.placement.bottom = .ok bottom ∧ bottom ≤ layout.displayHeight - strip

namespace Sizing

variable {input : Sizing} {layout : ScreenLayout}

/-- No more than all of a length is no more than the length. -/
theorem percentOf_le {percent length room : Int} (some : 0 ≤ percent) (all : percent ≤ 100)
    (one : 1 ≤ room) (le : length ≤ room) : percentOf percent length ≤ room := by
  have product : length * percent ≤ room * 100 := by nlinarith
  have part := Int.tdiv_le_tdiv (by decide : (0 : Int) < 100) product
  rw [Int.mul_tdiv_cancel room (by decide)] at part
  unfold percentOf clamp
  omega

theorem fittedSize_le (fits : input.scaleToFit = true) (width height roomWidth roomHeight : Int) :
    (input.fittedSize width height roomWidth roomHeight).2 ≤ roomHeight := by
  unfold fittedSize
  rw [fits]
  split_ifs with bare stretched
  · cases bare
  · exact Int.le_refl _
  · dsimp only
    split_ifs with exceeds
    · exact Int.le_refl _
    · exact Int.not_lt.mp exceeds

/-- A screen that is no higher than the display does not get higher when it is brought down to the
width of the display. -/
theorem shrunkSize_le {width height displayWidth displayHeight : Int}
    (wide : 1 ≤ width ∧ width ≤ greatestInt) (high : 1 ≤ height ∧ height ≤ greatestInt)
    (wide' : 1 ≤ displayWidth ∧ displayWidth ≤ greatestInt)
    (high' : 1 ≤ displayHeight ∧ displayHeight ≤ greatestInt)
    (fits : height ≤ displayHeight) (narrow : displayWidth < 2 ^ 24) :
    (shrunkSize width height displayWidth displayHeight).2 ≤ height := by
  lift width to ℕ using by omega
  lift height to ℕ using by omega
  lift displayWidth to ℕ using by omega
  lift displayHeight to ℕ using by omega
  rw [← isLength_iff] at wide high wide' high'
  norm_cast at *
  by_cases spills : displayWidth < width
  · rw [shrunkSize_eq wide high wide' high' (.inl spills)]
    have whole : single displayWidth = displayWidth := single_natCast narrow.le
    have wider : (displayWidth : ℚ) + 1 ≤ single width := by
      have next : single ((displayWidth + 1 : ℕ) : ℚ) = (displayWidth + 1 : ℕ) :=
        single_natCast narrow
      have mono := single_mono (q := (displayWidth + 1 : ℕ)) (by positivity)
        (show ((displayWidth + 1 : ℕ) : ℚ) ≤ width by exact_mod_cast spills)
      rw [next] at mono
      exact_mod_cast mono
    have below : factor width height displayWidth displayHeight ≤ 1 - 1 / 2 ^ 24 := by
      have holds : Format.single.Holds (1 - 1 / 2 ^ 24) :=
        ⟨2 ^ 24 - 1, -24, by decide, by decide, by norm_num⟩
      refine (min_le_left _ _).trans (holds.round_le (by decide)
        (div_nonneg (single_nonneg _) (single_nonneg _)) ?_)
      have short : (displayWidth : ℚ) + 1 ≤ 2 ^ 24 := by exact_mod_cast narrow
      rw [whole, div_le_iff₀ (by linarith)]
      nlinarith
    have shrunk : single (single height * factor width height displayWidth displayHeight) ≤ height :=
      Format.round_mul_le (by decide) (by decide) (by exact_mod_cast high.1) (factor_nonneg ..) below
    have floor := Int.floor_mono shrunk
    rw [Int.floor_natCast] at floor
    exact (min_le_left _ _).trans floor
  · rw [shrunkSize_of_fits (by omega) (by omega)]

/-- A screen that is to be fitted above a keyboard, at most as large as it fits. -/
structure AboveKeyboard (input : Sizing) : Prop where
  fits : input.scaleToFit = true
  ratio : 1 ≤ input.scaleRatio ∧ input.scaleRatio ≤ 100
  wide : 1 ≤ input.displayWidth ∧ input.displayWidth ≤ greatestInt
  high : 1 ≤ input.displayHeight ∧ input.displayHeight ≤ greatestInt
  strip : 0 ≤ input.reservedHeight ∧ input.reservedHeight < input.displayHeight

theorem AboveKeyboard.room_eq (above : input.AboveKeyboard) :
    input.room = input.displayHeight - input.reservedHeight := by
  have high := above.high
  have strip := above.strip
  unfold room
  omega

theorem AboveKeyboard.height_le (above : input.AboveKeyboard)
    (computed : input.layout = .ok layout) (narrow : layout.displayWidth < 2 ^ 24) :
    layout.placement.height ≤ layout.displayHeight - input.reservedHeight := by
  have width := displayWidth_layout computed
  have height := displayHeight_layout computed
  have room := above.room_eq
  obtain ⟨fits, ratio, wide, high, strip⟩ := above
  have displayWidth : 1 ≤ layout.displayWidth ∧ layout.displayWidth ≤ greatestInt := by omega
  have displayHeight : 1 ≤ layout.displayHeight ∧ layout.displayHeight ≤ greatestInt := by omega
  rw [placement_layout computed, shownSize]
  have fitted := fittedSize_le fits layout.width layout.height layout.displayWidth input.room
  generalize input.fittedSize layout.width layout.height layout.displayWidth input.room = size
    at fitted ⊢
  obtain ⟨w, h⟩ := size
  dsimp only at fitted ⊢
  have scaled := percentOf_le (by omega) ratio.2 (by omega) fitted
  have shrunk := shrunkSize_le (percentOf_mem input.scaleRatio w) (percentOf_mem input.scaleRatio h)
    displayWidth displayHeight (by omega) narrow
  simp only [place, clamp]
  omega

theorem AboveKeyboard.clears_iff_le (above : input.AboveKeyboard)
    (computed : input.layout = .ok layout) :
    layout.Clears input.reservedHeight ↔
      layout.placement.y + layout.placement.height ≤
        layout.displayHeight - input.reservedHeight := by
  have range := inRange_layout above.wide.2 above.high.2 computed
  have bottom := (placed_layout computed).bottom_placement range
  rw [ScreenLayout.Clears, bottom]
  simp only [Except.ok.injEq, exists_eq_left']

/-- On a display of less than 2²⁴ pixels across, a screen is never too high for the room above the
keyboard. In portrait it clears the strip exactly if it is not too high, but in landscape it only does
so if there is room for the strip twice. -/
theorem clears_iff (above : input.AboveKeyboard) (computed : input.layout = .ok layout) :
    (layout.displayWidth < 2 ^ 24 →
      layout.placement.height ≤ layout.displayHeight - input.reservedHeight) ∧
    (layout.displayWidth < layout.displayHeight →
      (layout.Clears input.reservedHeight ↔
        layout.placement.height ≤ layout.displayHeight - input.reservedHeight)) ∧
    (layout.displayHeight ≤ layout.displayWidth →
      (layout.Clears input.reservedHeight ↔
        layout.placement.height + 2 * input.reservedHeight ≤ layout.displayHeight + 1)) := by
  have fits := fits_layout above.wide.2 above.high.2 computed
  refine ⟨above.height_le computed, fun portrait => ?_, fun landscape => ?_⟩
  · rw [above.clears_iff_le computed, fits.top portrait, Int.zero_add]
  · have down := fits.down landscape
    rw [above.clears_iff_le computed]
    omega

/-- A hundred pixels reserved for a keyboard, on a display that lies on its side. -/
def lying : Sizing where
  displayWidth := 800
  displayHeight := 480
  virtualWidth := 240
  virtualHeight := 320
  fullscreen := true
  reservedHeight := 100

theorem aboveKeyboard_lying : lying.AboveKeyboard := by
  constructor <;> decide

theorem clears_iff_lying :
    (∃ layout, lying.layout = .ok layout ∧ ¬ layout.Clears 100) ∧
      ∃ layout, ({ lying with displayWidth := 320 } : Sizing).layout = .ok layout ∧
        layout.Clears 100 := by
  have upright : ({ lying with displayWidth := 320 } : Sizing).AboveKeyboard := by
    constructor <;> decide
  refine ⟨⟨_, rfl, fun clears => ?_⟩, _, rfl, ?_⟩
  · have small := ((clears_iff aboveKeyboard_lying rfl).2.2 (by decide +kernel)).mp clears
    exact absurd small (by decide +kernel)
  · exact ((clears_iff upright rfl).2.1 (by decide +kernel)).mpr (by decide +kernel)

theorem strip_covered :
    ¬ ∀ input : Sizing, input.AboveKeyboard → ∀ layout, input.layout = .ok layout →
      layout.Clears input.reservedHeight := by
  intro clears
  obtain ⟨bottom, computed, le⟩ := clears lying aboveKeyboard_lying _ rfl
  have reached : (⟨257, 50, 285, 380⟩ : Rect).bottom = .ok bottom := computed
  cases reached
  exact absurd le (by decide +kernel)

end Sizing

end Handset
