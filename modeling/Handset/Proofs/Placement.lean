import Handset.Proofs.Composing
import Handset.Proofs.Sizing

/-! Where a virtual screen is shown: somewhere within the display and in the middle of it, whatever
its size was computed to be. -/

namespace Handset

namespace ScreenLayout

variable {layout : ScreenLayout}

/-- A layout that leaves a canvas and a display of at least one pixel, and shows the one in the middle
of the other. A display that is higher than wide has it at its top. -/
structure Fits (layout : ScreenLayout) : Prop where
  displayWidth : 1 ≤ layout.displayWidth
  displayHeight : 1 ≤ layout.displayHeight
  width : 1 ≤ layout.width
  height : 1 ≤ layout.height
  maxHeight : 1 ≤ layout.maxHeight
  nonempty : layout.placement.isEmpty = false
  inside : layout.screen.containsRect layout.placement = .ok true
  across : 0 ≤ layout.displayWidth - layout.placement.width - 2 * layout.placement.x ∧
    layout.displayWidth - layout.placement.width - 2 * layout.placement.x ≤ 1
  down : layout.displayHeight ≤ layout.displayWidth →
    0 ≤ layout.displayHeight - layout.placement.height - 2 * layout.placement.y ∧
      layout.displayHeight - layout.placement.height - 2 * layout.placement.y ≤ 1
  top : layout.displayWidth < layout.displayHeight → layout.placement.y = 0

theorem Placed.nonempty (placed : layout.Placed) : layout.placement.isEmpty = false := by
  have wide := placed.wide
  have high := placed.high
  simp only [Rect.isEmpty, Bool.or_eq_false_iff, decide_eq_false_iff_not]
  omega

theorem Placed.right_placement (placed : layout.Placed) (range : layout.InRange) :
    layout.placement.right = .ok (layout.placement.x + layout.placement.width) := by
  obtain ⟨left, -, wide, -, right, -⟩ := placed
  exact Checked.result_of_nonneg (by omega) (Int.le_trans right range.width)

theorem Placed.bottom_placement (placed : layout.Placed) (range : layout.InRange) :
    layout.placement.bottom = .ok (layout.placement.y + layout.placement.height) := by
  obtain ⟨-, top, -, high, -, bottom⟩ := placed
  exact Checked.result_of_nonneg (by omega) (Int.le_trans bottom range.height)

/-- No edge is out of range, so that the question has an answer. -/
theorem Placed.inside (placed : layout.Placed) (range : layout.InRange) :
    layout.screen.containsRect layout.placement = .ok true := by
  have right := placed.right_placement range
  have bottom := placed.bottom_placement range
  obtain ⟨left, top, wide, high, right', bottom'⟩ := placed
  have screenRight : layout.screen.right = .ok layout.displayWidth := by
    rw [Rect.right, Checked.add, screen, Int.zero_add]
    exact Checked.result_of_nonneg (show 0 ≤ layout.displayWidth by omega) range.width
  have screenBottom : layout.screen.bottom = .ok layout.displayHeight := by
    rw [Rect.bottom, Checked.add, screen, Int.zero_add]
    exact Checked.result_of_nonneg (show 0 ≤ layout.displayHeight by omega) range.height
  have after : ¬ (layout.placement.x < layout.screen.x ∨ layout.placement.y < layout.screen.y) :=
    not_or.mpr ⟨Int.not_lt.mpr left, Int.not_lt.mpr top⟩
  simp only [Rect.containsRect, after, if_false, right, screenRight, bottom, screenBottom, bind,
    Except.bind, Int.not_lt.mpr right', pure, Except.pure, bottom', decide_true]

end ScreenLayout

namespace Sizing

variable {input : Sizing}

theorem displayWidth_layout {layout : ScreenLayout} (computed : input.layout = .ok layout) :
    layout.displayWidth = max input.displayWidth 1 :=
  congrArg Size.width (displaySize_layout computed)

theorem displayHeight_layout {layout : ScreenLayout} (computed : input.layout = .ok layout) :
    layout.displayHeight = max input.displayHeight 1 :=
  congrArg Size.height (displaySize_layout computed)

theorem inRange_layout {layout : ScreenLayout} (wide : input.displayWidth ≤ greatestInt)
    (high : input.displayHeight ≤ greatestInt) (computed : input.layout = .ok layout) :
    layout.InRange where
  width := by
    rw [displayWidth_layout computed]
    exact Int.max_le.mpr ⟨wide, by decide⟩
  height := by
    rw [displayHeight_layout computed]
    exact Int.max_le.mpr ⟨high, by decide⟩

theorem percentOf_mem (percent length : Int) :
    1 ≤ percentOf percent length ∧ percentOf percent length ≤ greatestInt :=
  clamp_mem (by decide) _

/-- The size of the screen before the display clamps it: fitted, scaled, and brought down. -/
def shownSize (input : Sizing) (layout : ScreenLayout) : Int × Int :=
  let (width, height) :=
    input.fittedSize layout.width layout.height layout.displayWidth input.room
  shrunkSize (percentOf input.scaleRatio width) (percentOf input.scaleRatio height)
    layout.displayWidth layout.displayHeight

theorem placement_layout {layout : ScreenLayout} (computed : input.layout = .ok layout) :
    layout.placement = place (clamp 1 layout.displayWidth (input.shownSize layout).1)
      (clamp 1 layout.displayHeight (input.shownSize layout).2) layout.displayWidth
      layout.displayHeight := by
  obtain ⟨rest, beside, computed⟩ := Checked.bind_eq_ok.mp computed
  obtain ⟨sides, -, computed⟩ := Checked.bind_eq_ok.mp computed
  obtain rfl := Checked.eq_of_result beside
  cases computed
  rfl

/-- The places where a layout cuts an integer out of a single: for the height of a canvas that leaves
room for bars, for a screen fitted to the display, and for one brought down to it. -/
inductive Cut
  | windowed
  | fittedWidth | fittedHeight
  | shrunkWidth | shrunkHeight

/-- The layout, with the integers that are cut out of singles given. -/
def layoutBy (cut : Cut → Int) (input : Sizing) : Except Fault ScreenLayout := do
  let displayWidth := max input.displayWidth 1
  let displayHeight := max input.displayHeight 1
  let room := max (← Checked.sub displayHeight input.reservedHeight) 1
  let (virtualWidth, virtualHeight) ← input.virtualSize displayWidth room
  let width := max virtualWidth 1
  let maxHeight := max virtualHeight 1
  let height := if input.fullscreen then maxHeight else max (cut .windowed) 1
  let (fittedWidth, fittedHeight) :=
    if !input.scaleToFit then (width, height)
    else if !input.keepAspectRatio then (displayWidth, room)
    else if room < cut .fittedHeight then (cut .fittedWidth, room)
    else (displayWidth, cut .fittedHeight)
  let scaledWidth := percentOf input.scaleRatio fittedWidth
  let scaledHeight := percentOf input.scaleRatio fittedHeight
  let (shownWidth, shownHeight) :=
    if displayWidth < scaledWidth ∨ displayHeight < scaledHeight then
      (cut .shrunkWidth, cut .shrunkHeight)
    else (scaledWidth, scaledHeight)
  return {
    displayWidth, displayHeight, width, height, maxHeight
    placement := place (clamp 1 displayWidth shownWidth) (clamp 1 displayHeight shownHeight)
      displayWidth displayHeight }

/-- The layout is computed from some integers that are cut out of singles. -/
theorem exists_layoutBy (input : Sizing) : ∃ cut, input.layout = input.layoutBy cut := by
  dsimp only [layout, layoutBy]
  cases Checked.sub (max input.displayHeight 1) input.reservedHeight with
  | error fault => exact ⟨fun _ => 0, rfl⟩
  | ok rest =>
    dsimp only [bind, Except.bind]
    cases input.virtualSize (max input.displayWidth 1) (max rest 1) with
    | error fault => exact ⟨fun _ => 0, rfl⟩
    | ok sides =>
      obtain ⟨virtualWidth, virtualHeight⟩ := sides
      let width := max virtualWidth 1
      let height := if input.fullscreen then max virtualHeight 1 else windowedHeight width
      let fitted := input.fittedSize width height (max input.displayWidth 1) (max rest 1)
      let scaledWidth := percentOf input.scaleRatio fitted.1
      let scaledHeight := percentOf input.scaleRatio fitted.2
      let factor : Single := Floating.lesser
        (.ofInt (max input.displayWidth 1) / .ofInt scaledWidth)
        (.ofInt (max input.displayHeight 1) / .ofInt scaledHeight)
      exact ⟨fun
        | .windowed => (Floating.ofInt width * windowedRatio).round
        | .fittedWidth => proportion width (max rest 1) height
        | .fittedHeight => proportion height (max input.displayWidth 1) width
        | .shrunkWidth => (Floating.ofInt scaledWidth * factor).truncate
        | .shrunkHeight => (Floating.ofInt scaledHeight * factor).truncate, rfl⟩

/-- Whatever the integers are, nothing is less than one pixel, and the display clamps the rest. -/
theorem shown_layoutBy {cut : Cut → Int} {layout : ScreenLayout}
    (computed : input.layoutBy cut = .ok layout) :
    (layout.displayWidth = max input.displayWidth 1 ∧
      layout.displayHeight = max input.displayHeight 1) ∧
    (1 ≤ layout.width ∧ 1 ≤ layout.height ∧ 1 ≤ layout.maxHeight) ∧
    ∃ width height, layout.placement = place (clamp 1 layout.displayWidth width)
      (clamp 1 layout.displayHeight height) layout.displayWidth layout.displayHeight := by
  obtain ⟨rest, -, computed⟩ := Checked.bind_eq_ok.mp computed
  obtain ⟨sides, -, computed⟩ := Checked.bind_eq_ok.mp computed
  cases computed
  refine ⟨⟨rfl, rfl⟩, ⟨Int.le_max_right .., ?_, Int.le_max_right ..⟩, _, _, rfl⟩
  dsimp only
  split
  · exact Int.le_max_right ..
  · exact Int.le_max_right ..

theorem fits_layoutBy (wide : input.displayWidth ≤ greatestInt)
    (high : input.displayHeight ≤ greatestInt) {cut : Cut → Int} {layout : ScreenLayout}
    (computed : input.layoutBy cut = .ok layout) : layout.Fits := by
  obtain ⟨⟨across, down⟩, ⟨width, height, maxHeight⟩, w, h, shown⟩ := shown_layoutBy computed
  have displayWidth : 1 ≤ layout.displayWidth := by omega
  have displayHeight : 1 ≤ layout.displayHeight := by omega
  have placed := ScreenLayout.placed_of_eq displayWidth displayHeight shown
  have range : layout.InRange := by
    constructor <;> unfold greatestInt at * <;> omega
  have left := clamp_mem displayWidth w
  have top := clamp_mem displayHeight h
  refine ⟨displayWidth, displayHeight, width, height, maxHeight, placed.nonempty,
    placed.inside range, ?_, fun landscape => ?_, fun portrait => ?_⟩
  · rw [shown]
    exact (tdiv_two_mem (Int.sub_nonneg.mpr left.2)).2
  · rw [shown]
    simp only [place, landscape, if_true]
    exact (tdiv_two_mem (Int.sub_nonneg.mpr top.2)).2
  · rw [shown]
    exact if_neg (Int.not_le.mpr portrait)

theorem fits_layout (wide : input.displayWidth ≤ greatestInt)
    (high : input.displayHeight ≤ greatestInt) {layout : ScreenLayout}
    (computed : input.layout = .ok layout) : layout.Fits := by
  obtain ⟨cut, same⟩ := exists_layoutBy input
  rw [same] at computed
  exact fits_layoutBy wide high computed

/-- A layout that is computed without an overflow fits, and so does one computed from any integers in
the place of those that are cut out of singles. -/
theorem layout_fits (wide : input.displayWidth ≤ greatestInt)
    (high : input.displayHeight ≤ greatestInt) :
    (∀ layout, input.layout = .ok layout → layout.Fits) ∧
    (∃ cut, input.layout = input.layoutBy cut) ∧
    ∀ cut layout, input.layoutBy cut = .ok layout → layout.Fits :=
  ⟨fun _ => fits_layout wide high, exists_layoutBy input, fun _ _ => fits_layoutBy wide high⟩

/-- A display without a height, and a screen as much enlarged as can be asked for. -/
theorem layout_fits_enlarged :
    let input : Sizing := { displayHeight := -3, scaleRatio := greatestInt }
    (∃ layout, input.layout = .ok layout ∧ layout.Fits) ∧
      ∃ layout, input.layoutBy (fun _ => leastInt) = .ok layout ∧ layout.Fits := by
  intro input
  obtain ⟨fits, -, fits'⟩ := @layout_fits input (by decide) (by decide)
  exact ⟨⟨_, rfl, fits _ rfl⟩, _, rfl, fits' (fun _ => leastInt) _ rfl⟩

end Sizing

end Handset
