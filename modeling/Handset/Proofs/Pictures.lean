import Handset.Proofs.Composing

/-! Pictures, pixel by pixel: where an image is stretched over a part of another, what a screen
shows after it was composed, and the same image by itself at its size on the display. -/

namespace Handset

namespace Image

theorem holds_iff_covers {image : Image} {x y : Int} :
    image.Holds x y ↔ image.bounds.Covers x y := by
  simp only [Holds, Rect.Covers, bounds]
  omega

/-- Images of one size that have the same pixels are the same. -/
theorem ext_pixel? {a b : Image} (size : a.size = b.size)
    (pixels : ∀ x y, a.Holds x y → a.pixel? x y = b.pixel? x y) : a = b := by
  have width : a.width = b.width := Int.ofNat_inj.mp (congrArg Size.width size)
  have height : a.height = b.height := Int.ofNat_inj.mp (congrArg Size.height size)
  refine ext_pixels width height (Array.ext ?_ fun i inside inside' => ?_)
  · rw [a.size_eq, b.size_eq, width, height]
  · let x := i % a.width
    let y := i / a.width
    have place : y * a.width + x = i := Nat.div_add_mod' i a.width
    have holds : a.Holds x y := by
      have across : x < a.width := Nat.mod_lt _ a.width_pos
      have down : y < a.height := Nat.div_lt_of_lt_mul (by rw [← a.size_eq]; exact inside)
      exact ⟨Int.natCast_nonneg _, Int.ofNat_lt.mpr across, Int.natCast_nonneg _,
        Int.ofNat_lt.mpr down⟩
    have holds' : b.Holds x y := by
      unfold Holds at holds ⊢
      rwa [← width, ← height]
    have same := pixels x y holds
    have index : a.index x y = i := by
      unfold Image.index
      rw [← place]
      omega
    have index' : b.index x y = i := by
      unfold Image.index
      rw [← width, ← place]
      omega
    rw [pixel?_of_holds holds holds.index_lt, pixel?_of_holds holds' holds'.index_lt] at same
    simpa only [index, index'] using Option.some.inj same

/-- It depends on the size alone how far an image goes. -/
theorem bounds_of_size {a b : Image} (size : a.size = b.size) : a.bounds = b.bounds := by
  have width : (a.width : Int) = b.width := congrArg Size.width size
  have height : (a.height : Int) = b.height := congrArg Size.height size
  rw [bounds, bounds, width, height]

end Image

/-- A stretched image covers its place as far as the clip lets it, and nothing else. -/
theorem Draw.paints_drawImageScaled {g g' : Graphics} {image : Image} {r : Rect} {filter : Bool}
    (within : ∀ x y, g.pen.clip.Covers x y → g.target.Holds x y)
    (ran : (drawImageScaled image r filter).run.run g = (.ok (), g')) :
    g.Paints (fun x y => (g.pen.placed r).Covers x y ∧ g.pen.clip.Covers x y)
      (image.tint filter (g.pen.placed r)) g' := by
  cases empty : r.isEmpty with
  | true =>
    rw [run_drawImageScaled_of_isEmpty empty] at ran
    cases ran
    refine Graphics.paints_nothing g fun x y inside => ?_
    simp only [Rect.isEmpty, Bool.or_eq_true, decide_eq_true_eq] at empty
    have covers := inside.1
    simp only [Rect.Covers, Pen.placed, Rect.moved] at covers
    omega
  | false =>
    obtain ⟨⟨-, paintable⟩, rfl⟩ := (drawImageScaled_eq_ok empty).mp ran
    exact Graphics.paints_meet within paintable

namespace ScreenLayout

theorem Placed.visible {layout : ScreenLayout} (placed : layout.Placed) :
    layout.placement.isEmpty = false := by
  obtain ⟨left, top, wide, high, right, bottom⟩ := placed
  simp only [Rect.isEmpty, Bool.or_eq_false_iff, decide_eq_false_iff_not]
  omega

/-- What is shown on the display, by itself. -/
def shown (layout : ScreenLayout) : Rect :=
  ⟨0, 0, layout.placement.width, layout.placement.height⟩

def blank (layout : ScreenLayout) : Image :=
  .blank layout.placement.width layout.placement.height

theorem Placed.size_blank {layout : ScreenLayout} (placed : layout.Placed) :
    layout.blank.size = ⟨layout.placement.width, layout.placement.height⟩ :=
  (Image.size_blank ..).trans (Size.positive_of_le placed.wide placed.high)

end ScreenLayout

/-- The screen shows an image in its place over the background, and nothing that was there
before. -/
structure Image.Shows (picture image : Image) (layout : ScreenLayout) (background : UInt32)
    (filter : Bool) : Prop where
  size : picture.size = layout.displaySize
  around : ∀ x y, layout.screen.Covers x y → ¬ layout.placement.Covers x y →
    picture.pixel? x y = some (0xFF000000 ||| background)
  within : ∀ x y, layout.placement.Covers x y → ∃ color,
    image.stretched filter layout.placement (x - layout.placement.x) (y - layout.placement.y) =
      .ok color ∧ picture.pixel? x y = some color

namespace Image

variable {image picture picture' : Image} {layout : ScreenLayout} {background : UInt32}
  {filter : Bool} {x y : Int}

theorem holds_iff_screen (size : image.size = layout.displaySize) :
    image.Holds x y ↔ layout.screen.Covers x y := by
  have width : (image.width : Int) = layout.displayWidth := congrArg Size.width size
  have height : (image.height : Int) = layout.displayHeight := congrArg Size.height size
  simp only [Holds, Rect.Covers, ScreenLayout.screen]
  omega

/-- There is one such picture at most. -/
theorem Shows.unique (shows : picture.Shows image layout background filter)
    (shows' : picture'.Shows image layout background filter) : picture = picture' := by
  refine ext_pixel? (shows.size.trans shows'.size.symm) fun x y holds => ?_
  by_cases inside : layout.placement.Covers x y
  · obtain ⟨color, sample, pixel⟩ := shows.within x y inside
    obtain ⟨color', sample', pixel'⟩ := shows'.within x y inside
    rw [sample] at sample'
    rw [pixel, pixel', Except.ok.inj sample']
  · have screen := (holds_iff_screen shows.size).mp holds
    rw [shows.around x y screen inside, shows'.around x y screen inside]

end Image

namespace Frame

variable {frame frame' : Frame} {layout : ScreenLayout} {settings : Settings} {now : Nat}

theorem shows_picture {screen image picture : Image} {background : UInt32} {filter : Bool}
    (drawn : Frame.picture screen image (Settings.solid background) layout.placement filter =
      .ok picture)
    (size : screen.size = layout.displaySize) (placed : layout.Placed) :
    picture.Shows image layout background filter := by
  have size' : picture.size = layout.displaySize := (size_picture drawn).trans size
  simp only [Frame.picture] at drawn
  split at drawn
  · rename_i g ran
    cases drawn
    -- The clip is the whole screen, so that it cuts nothing off.
    have clip : ∀ x y, (Graphics.on screen).pen.clip.Covers x y ↔ screen.Holds x y :=
      fun x y => Image.holds_iff_covers.symm
    have paints := Draw.paints_drawImageScaled (g := { Graphics.on screen with
      target := screen.fill (Settings.solid background) }) (fun x y => (clip x y).mp) ran
    rw [Pen.placed_of_corner ⟨rfl, rfl⟩] at paints
    refine ⟨size', fun x y inside outside => ?_, fun x y covers => ?_⟩
    · rw [paints.outside x y fun h => outside h.1, Image.pixel?_fill,
        if_pos ((Image.holds_iff_screen size).mpr inside)]
      rfl
    · have holds : screen.Holds x y := by
        obtain ⟨left, top, wide, high, right, bottom⟩ := placed
        rw [Image.holds_iff_screen size]
        simp only [Rect.Covers, ScreenLayout.screen] at covers ⊢
        omega
      exact paints.inside x y ⟨covers, (clip x y).mpr holds⟩
  · cases drawn

/-- What a display is given is the picture of what is shown. -/
theorem shows_compose {refusal : Option Error}
    (composed : frame.compose layout settings now = .ok (refusal, frame'))
    (matched : frame.Matches layout) (placed : layout.Placed) :
    frame'.screen.Shows frame.copy layout settings.background settings.filter := by
  obtain ⟨picture, drawn, composed⟩ := Checked.bind_eq_ok.mp composed
  have shows := shows_picture drawn matched.screen placed
  cases result : (frame.display.present picture).1 with
  | ok _ =>
    simp only [result] at composed
    cases composed
    exact shows
  | error error =>
    simp only [result] at composed
    cases composed
    exact shows

end Frame

end Handset
