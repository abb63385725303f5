import Handset.Proofs.Confinement
import Mathlib.Logic.Relation

/-! The images of a canvas and the layout that they are for. The application draws in one of the
size of the canvas, what is shown is in another of that size, and the screen has the size of the
display. -/

namespace Handset

/-- Whatever an application draws, the image keeps its sides. -/
theorem Graphics.size_draw (g : Graphics) (drawing : Drawing) :
    (g.draw drawing).2.target.size = g.target.size := by
  by_cases clears : ∃ color, drawing = .clear color
  · obtain ⟨color, rfl⟩ := clears
    exact Draw.keepsSize_clear color g
  · exact (effect_draw g (not_exists.mp clears)).size

@[simp] theorem Image.size_copyTo (image target : Image) :
    (image.copyTo target).size = target.size := by
  simp [size]

theorem Size.positive_of_le {size : Size} (width : 1 ≤ size.width) (height : 1 ≤ size.height) :
    size.positive = size := by
  rw [positive, Int.max_eq_left width, Int.max_eq_left height]

/-- A layout gives the canvas and the display at least one pixel each. -/
structure ScreenLayout.Positive (layout : ScreenLayout) : Prop where
  size : layout.size.positive = layout.size
  displaySize : layout.displaySize.positive = layout.displaySize

theorem Sizing.positive_layout {input : Sizing} {layout : ScreenLayout}
    (h : input.layout = .ok layout) : layout.Positive := by
  obtain ⟨room, -, h⟩ := Checked.bind_eq_ok.mp h
  obtain ⟨sides, -, h⟩ := Checked.bind_eq_ok.mp h
  cases h
  refine ⟨Size.positive_of_le ?_ ?_, Size.positive_of_le ?_ ?_⟩
  · exact Int.le_max_right _ _
  · dsimp only
    split
    · exact Int.le_max_right _ _
    · exact Int.le_max_right _ _
  · exact Int.le_max_right _ _
  · exact Int.le_max_right _ _

theorem Settings.positive_layout {settings : Settings} {layout : ScreenLayout}
    (h : settings.layout = .ok layout) : layout.Positive := by
  obtain ⟨input, -, h⟩ := Checked.bind_eq_ok.mp h
  exact Sizing.positive_layout h

namespace Frame

/-- The images have the sizes that the layout asks for. -/
structure Matches (frame : Frame) (layout : ScreenLayout) : Prop where
  offscreen : frame.offscreen.size = layout.size
  copy : frame.copy.size = layout.size
  screen : frame.screen.size = layout.displaySize

theorem matches_ofLayout {layout : ScreenLayout} (positive : layout.Positive) (display : Display)
    (fps : Option FpsCounter) : (ofLayout layout display fps).Matches layout where
  offscreen := (Image.size_blank ..).trans positive.size
  copy := (Image.size_blank ..).trans positive.size
  screen := (Image.size_blank ..).trans positive.displaySize

theorem fits_iff {image : Image} {width height : Int} :
    fits image width height = true ↔ image.size = ⟨width, height⟩ := by
  simp [fits, Image.size]

theorem size_reallocate (image : Image) {size : Size} (positive : size.positive = size) :
    (Image.reallocate (some image) size.width size.height).size = size := by
  rw [Image.reallocate_eq_blank, Image.size_blank]
  exact positive

theorem offscreen_resize (frame : Frame) (layout : ScreenLayout) :
    (frame.resize layout).offscreen =
      if fits frame.offscreen layout.width layout.height then frame.offscreen
      else .reallocate (some frame.offscreen) layout.width layout.height := by
  unfold resize
  split <;> dsimp only <;> split <;> rfl

/-- The copy is kept or replaced as the offscreen image is. -/
theorem copy_resize (frame : Frame) (layout : ScreenLayout) :
    (frame.resize layout).copy =
      if fits frame.offscreen layout.width layout.height then frame.copy
      else .reallocate (some frame.copy) layout.width layout.height := by
  unfold resize
  split <;> dsimp only <;> split <;> rfl

theorem Matches.resized {frame : Frame} {previous layout : ScreenLayout}
    (h : frame.Matches previous) (positive : layout.Positive) :
    (frame.resize layout).Matches layout where
  offscreen := by
    rw [offscreen_resize]
    split
    · rename_i fit
      exact fits_iff.mp fit
    · exact size_reallocate _ positive.size
  copy := by
    rw [copy_resize]
    split
    · rename_i fit
      exact (h.copy.trans h.offscreen.symm).trans (fits_iff.mp fit)
    · exact size_reallocate _ positive.size
  screen := size_resize frame layout positive.displaySize

theorem Matches.finished {frame : Frame} {layout : ScreenLayout} (h : frame.Matches layout) :
    frame.finish.Matches layout :=
  { h with copy := (Image.size_copyTo ..).trans h.copy }

theorem Matches.submitted {frame : Frame} {layout : ScreenLayout} (h : frame.Matches layout)
    (image : Image) : (frame.submit image).Matches layout :=
  { h with copy := (Image.size_copyTo ..).trans h.copy }

/-- Composing puts a picture on the screen, and leaves the images of the canvas alone. -/
theorem Matches.composed {frame frame' : Frame} {layout shown : ScreenLayout}
    {settings : Settings} {now : Nat} {refusal : Option Error} (h : frame.Matches layout)
    (composed : frame.compose shown settings now = .ok (refusal, frame')) :
    frame'.Matches layout := by
  have screen := (size_compose composed).trans h.screen
  obtain ⟨picture, -, composed⟩ := Checked.bind_eq_ok.mp composed
  cases result : (frame.display.present picture).1 with
  | ok _ =>
    simp only [result] at composed
    cases composed
    exact ⟨h.offscreen, h.copy, screen⟩
  | error error =>
    simp only [result] at composed
    cases composed
    exact ⟨h.offscreen, h.copy, screen⟩

/-- The application draws with a pen. -/
def draw (frame : Frame) (pen : Pen) (drawing : Drawing) : Frame :=
  { frame with offscreen := ((Graphics.mk pen frame.offscreen).draw drawing).2.target }

theorem Matches.drawn {frame : Frame} {layout : ScreenLayout} (h : frame.Matches layout) (pen : Pen)
    (drawing : Drawing) : (frame.draw pen drawing).Matches layout :=
  { h with offscreen := (Graphics.size_draw ..).trans h.offscreen }

end Frame

end Handset
