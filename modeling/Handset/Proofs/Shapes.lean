import Handset.Proofs.Lines

/-! Shapes: the pixels that a filled rectangle, a frame and an image get, out of those in the clip.
All others stay as they are. -/

namespace Handset

open Checked (Fits)

namespace Segment

variable {s : Segment} {x y : Int}

/-- Along a level line to the right the steps go from one point to the next. -/
theorem point_of_level (level : s.endY = s.y) (right : s.x ≤ s.endX) :
    (s.length : Int) = s.endX - s.x ∧
      ∀ {k : Nat}, k ≤ s.length → s.point k = (s.x + k, s.y) := by
  have high : s.high = 0 := by
    unfold Segment.high
    omega
  have flat : s.high ≤ s.wide := high ▸ s.wide_nonneg
  have long : (s.length : Int) = s.endX - s.x := by
    rw [length_of_flat flat, wide]
    omega
  refine ⟨long, fun {k} le => ?_⟩
  have down := down_mem (s := s) (k := k) (by omega) (by omega)
  have still : s.down k = 0 := by omega
  rw [point, still, across, if_pos flat, stepX]
  split
  · simp
  · have : (k : Int) = 0 := by omega
    simp [this]

/-- A level line to the right has all the points between its ends. -/
theorem point_level_iff (level : s.endY = s.y) (right : s.x ≤ s.endX) :
    (∃ k : Nat, k ≤ s.length ∧ (x, y) = s.point k) ↔ s.x ≤ x ∧ x ≤ s.endX ∧ y = s.y := by
  obtain ⟨long, here⟩ := point_of_level level right
  constructor
  · rintro ⟨k, le, same⟩
    rw [here le] at same
    cases same
    omega
  · rintro ⟨left, right, rfl⟩
    refine ⟨(x - s.x).toNat, by omega, ?_⟩
    rw [here (by omega), Int.toNat_of_nonneg (by omega), add_sub_cancel]

/-- So they go along an upright line down. -/
theorem point_of_upright (upright : s.endX = s.x) (downward : s.y ≤ s.endY) :
    (s.length : Int) = s.endY - s.y ∧
      ∀ {k : Nat}, k ≤ s.length → s.point k = (s.x, s.y + k) := by
  have wide : s.wide = 0 := by
    unfold Segment.wide
    omega
  have long : (s.length : Int) = s.endY - s.y := by
    rw [length_eq, wide, Segment.high]
    omega
  refine ⟨long, fun {k} le => ?_⟩
  have inside := across_mem (s := s) (k := k) (by omega) (by omega)
  have still : s.across k = 0 := by omega
  have goes : s.down k = k := by
    by_cases flat : s.high ≤ s.wide
    · have none : k = 0 := by
        have := length_of_flat flat
        omega
      subst none
      exact down_zero s
    · rw [down, if_neg flat]
  rw [point, still, goes, stepY]
  split
  · simp
  · have : (k : Int) = 0 := by omega
    simp [this]

/-- An upright line down has all the points between its ends. -/
theorem point_upright_iff (upright : s.endX = s.x) (downward : s.y ≤ s.endY) :
    (∃ k : Nat, k ≤ s.length ∧ (x, y) = s.point k) ↔ x = s.x ∧ s.y ≤ y ∧ y ≤ s.endY := by
  obtain ⟨long, here⟩ := point_of_upright upright downward
  constructor
  · rintro ⟨k, le, same⟩
    rw [here le] at same
    cases same
    omega
  · rintro ⟨rfl, top, bottom⟩
    refine ⟨(y - s.y).toNat, by omega, ?_⟩
    rw [here (by omega), Int.toNat_of_nonneg (by omega), add_sub_cancel]

end Segment

/-- The point is on one of the sides of a frame, which is one pixel larger than its size says. -/
def Rect.Frames (r : Rect) (x y : Int) : Prop :=
  (r.x ≤ x ∧ x ≤ r.x + r.width ∧ r.y ≤ y ∧ y ≤ r.y + r.height) ∧
    (x = r.x ∨ x = r.x + r.width ∨ y = r.y ∨ y = r.y + r.height)

instance (r : Rect) (x y : Int) : Decidable (r.Frames x y) :=
  inferInstanceAs (Decidable (_ ∧ _))

/-- All corners of the frame are in range, seen from the origin and on the image. -/
structure Pen.Corners (pen : Pen) (r : Rect) : Prop where
  right : Fits (r.x + r.width)
  bottom : Fits (r.y + r.height)
  left' : Fits (r.x + pen.originX)
  top' : Fits (r.y + pen.originY)
  right' : Fits (r.x + r.width + pen.originX)
  bottom' : Fits (r.y + r.height + pen.originY)

namespace Draw

variable {g g' : Graphics} {r : Rect}

/-- A rectangle has the pixels of its place that the clip has. -/
theorem fillRect_exact (sound : g.Sound) (r : Rect) : g.DrawsExactly (fillRect r)
    (g.pen.Places r ∧ (g.pen.placed r).Meets g.pen.clip)
    (fun x y => (g.pen.placed r).Covers x y ∧ g.pen.clip.Covers x y)
    (fun _ _ => .ok g.pen.color) := by
  have ran_iff (g' : Graphics) : (fillRect r).run.run g = (.ok (), g') ↔
      ((g.pen.Places r ∧ (g.pen.placed r).Meets g.pen.clip) ∧
        ∀ x y, ((g.pen.placed r).meet g.pen.clip).Covers x y →
          Paintable g.target (fun _ _ => .ok g.pen.color) x y) ∧
      g' = { g with
        target := g.target.setArea ((g.pen.placed r).meet g.pen.clip)
          (shade fun _ _ => .ok g.pen.color) } := by
    simp only [fillRect, run_pen_bind, run_liftM_bind_eq_ok, paintArea_eq_ok, Pen.place_eq_ok,
      Rect.intersection_eq_ok]
    constructor
    · rintro ⟨_, ⟨places, rfl⟩, _, ⟨meets, rfl⟩, paintable, rfl⟩
      exact ⟨⟨⟨places, meets⟩, paintable⟩, rfl⟩
    · rintro ⟨⟨⟨places, meets⟩, paintable⟩, rfl⟩
      exact ⟨_, ⟨places, rfl⟩, _, ⟨meets, rfl⟩, paintable, rfl⟩
  refine ⟨?_, fun g' ran => ?_⟩
  · simp only [ran_iff, exists_and_left, exists_eq, and_true, Rect.covers_meet]
  · obtain ⟨⟨-, paintable⟩, rfl⟩ := (ran_iff g').mp ran
    exact Graphics.paints_meet (fun x y => sound.holds) paintable

variable {image : Image} {filter : Bool}

/-- An image has the pixels of its place that the clip has; where the place is empty nothing is
computed. -/
theorem drawImageScaled_exact (sound : g.Sound) : g.DrawsExactly (drawImageScaled image r filter)
    (r.isEmpty = true ∨ g.pen.Places r ∧ (g.pen.placed r).Meets g.pen.clip)
    (fun x y => (g.pen.placed r).Covers x y ∧ g.pen.clip.Covers x y)
    (image.tint filter (g.pen.placed r)) := by
  refine ⟨?_, fun g' => paints_drawImageScaled fun x y => sound.holds⟩
  cases empty : r.isEmpty with
  | true =>
    refine iff_of_true ⟨g, run_drawImageScaled_of_isEmpty empty⟩ ⟨.inl rfl, fun x y inside => ?_⟩
    simp only [Rect.isEmpty, Bool.or_eq_true, decide_eq_true_eq] at empty
    have covers := inside.1
    simp only [Rect.Covers, Pen.placed, Rect.moved] at covers
    omega
  | false =>
    simp only [drawImageScaled_eq_ok empty, exists_and_left, exists_eq, and_true,
      Bool.false_eq_true, false_or, Rect.covers_meet]

/-- The two ends of a line that is drawn are in range, and so are their places on the image. -/
theorem fits_of_drawLine {x₁ y₁ x₂ y₂ : Int}
    (ran : (drawLine x₁ y₁ x₂ y₂).run.run g = (.ok (), g')) :
    Fits (x₁ + g.pen.originX) ∧ Fits (y₁ + g.pen.originY) ∧ Fits (x₂ + g.pen.originX) ∧
      Fits (y₂ + g.pen.originY) := by
  rw [drawLine, run_pen_bind] at ran
  obtain ⟨_, x, ran⟩ := run_liftM_bind_eq_ok.mp ran
  obtain ⟨_, y, ran⟩ := run_liftM_bind_eq_ok.mp ran
  obtain ⟨_, endX, ran⟩ := run_liftM_bind_eq_ok.mp ran
  obtain ⟨_, endY, ran⟩ := run_liftM_bind_eq_ok.mp ran
  exact ⟨(Checked.result_eq_ok.mp x).1, (Checked.result_eq_ok.mp y).1,
    (Checked.result_eq_ok.mp endX).1, (Checked.result_eq_ok.mp endY).1⟩

theorem level_exact {pen : Pen} {x y right : Int} (sound : g.Sound) (same : g.pen = pen)
    (solid : pen.stroke = .solid) (le : x ≤ right) (short : right - x ≤ 536870912)
    (fits : Fits (x + pen.originX)) (fits' : Fits (right + pen.originX))
    (height : Fits (y + pen.originY)) :
    g.DrawsExactly (drawLine x y right y) True (fun u v => pen.clip.Covers u v ∧
        x + pen.originX ≤ u ∧ u ≤ right + pen.originX ∧ v = y + pen.originY)
      (fun _ _ => .ok pen.color) := by
  subst same
  have range : (g.pen.segment x y right y).InRange := by
    constructor <;> simp only [Pen.segment, Segment.wide, Segment.high]
    · exact fits
    · exact height
    · exact fits'
    · exact height
    · omega
    · omega
  refine (drawLine_exact sound rfl range).congr Iff.rfl fun u v => and_congr_right' ?_
  simp only [solid, reduceCtorEq, false_imp_iff, true_and]
  have le' : x + g.pen.originX ≤ right + g.pen.originX := Int.add_le_add_right le _
  exact (Segment.point_level_iff (s := g.pen.segment x y right y) rfl le').symm

theorem upright_exact {pen : Pen} {x y bottom : Int} (sound : g.Sound) (same : g.pen = pen)
    (solid : pen.stroke = .solid) (le : y ≤ bottom) (short : bottom - y ≤ 536870912)
    (fits : Fits (y + pen.originY)) (fits' : Fits (bottom + pen.originY))
    (width : Fits (x + pen.originX)) :
    g.DrawsExactly (drawLine x y x bottom) True (fun u v => pen.clip.Covers u v ∧
        u = x + pen.originX ∧ y + pen.originY ≤ v ∧ v ≤ bottom + pen.originY)
      (fun _ _ => .ok pen.color) := by
  subst same
  have range : (g.pen.segment x y x bottom).InRange := by
    constructor <;> simp only [Pen.segment, Segment.wide, Segment.high]
    · exact width
    · exact fits
    · exact width
    · exact fits'
    · omega
    · omega
  refine (drawLine_exact sound rfl range).congr Iff.rfl fun u v => and_congr_right' ?_
  simp only [solid, reduceCtorEq, false_imp_iff, true_and]
  have le' : y + g.pen.originY ≤ bottom + g.pen.originY := Int.add_le_add_right le _
  exact (Segment.point_upright_iff (s := g.pen.segment x y x bottom) rfl le').symm

theorem drawRect_of_negative (negative : r.width < 0 ∨ r.height < 0) : drawRect r = pure () :=
  if_pos negative

/-- A frame is made of four lines. -/
theorem drawRect_eq (nonneg : ¬ (r.width < 0 ∨ r.height < 0)) (right : Fits (r.x + r.width))
    (bottom : Fits (r.y + r.height)) : drawRect r = (do
      drawLine r.x r.y (r.x + r.width) r.y
      drawLine r.x (r.y + r.height) (r.x + r.width) (r.y + r.height)
      drawLine r.x r.y r.x (r.y + r.height)
      drawLine (r.x + r.width) r.y (r.x + r.width) (r.y + r.height)) := by
  have right : r.right = .ok (r.x + r.width) := Checked.result_of_mem right
  have bottom : r.bottom = .ok (r.y + r.height) := Checked.result_of_mem bottom
  rw [drawRect, if_neg nonneg, right, bottom]
  rfl

/-- Each side is drawn in what the one before has left, with the same pen. -/
theorem sides_exact (sound : g.Sound) (solid : g.pen.stroke = .solid)
    (wide : 0 ≤ r.width ∧ r.width ≤ 536870912) (high : 0 ≤ r.height ∧ r.height ≤ 536870912)
    (corners : g.pen.Corners r) : g.DrawsExactly (drawRect r) True
      (fun x y => g.pen.clip.Covers x y ∧ (g.pen.placed r).Frames x y)
      (fun _ _ => .ok g.pen.color) := by
  obtain ⟨right, bottom, left', top', right', bottom'⟩ := corners
  have upper {g₁ : Graphics} (same : g₁.pen = g.pen) (size : g₁.target.size = g.target.size) :
      g₁.DrawsExactly (drawLine r.x r.y (r.x + r.width) r.y) True _ _ :=
    level_exact (sound.of_size same size) same solid (by omega) (by omega) left' right' top'
  have lower {g₁ : Graphics} (same : g₁.pen = g.pen) (size : g₁.target.size = g.target.size) :
      g₁.DrawsExactly (drawLine r.x (r.y + r.height) (r.x + r.width) (r.y + r.height)) True _ _ :=
    level_exact (sound.of_size same size) same solid (by omega) (by omega) left' right' bottom'
  have before {g₁ : Graphics} (same : g₁.pen = g.pen) (size : g₁.target.size = g.target.size) :
      g₁.DrawsExactly (drawLine r.x r.y r.x (r.y + r.height)) True _ _ :=
    upright_exact (sound.of_size same size) same solid (by omega) (by omega) top' bottom' left'
  have behind {g₁ : Graphics} (same : g₁.pen = g.pen) (size : g₁.target.size = g.target.size) :
      g₁.DrawsExactly (drawLine (r.x + r.width) r.y (r.x + r.width) (r.y + r.height)) True _ _ :=
    upright_exact (sound.of_size same size) same solid (by omega) (by omega) top' bottom' right'
  have sides := (upper rfl rfl).bind fun g₁ same₁ size₁ =>
    (lower same₁ size₁).bind fun g₂ same₂ size₂ =>
      (before (same₂.trans same₁) (size₂.trans size₁)).bind fun g₃ same₃ size₃ =>
        behind (same₃.trans (same₂.trans same₁)) (size₃.trans (size₂.trans size₁))
  rw [drawRect_eq (by omega) right bottom]
  refine sides.congr (by simp only [and_self]) fun x y => ?_
  rw [← and_or_left, ← and_or_left, ← and_or_left]
  refine and_congr_right' ?_
  simp only [Rect.Frames, Pen.placed, Rect.moved]
  omega

theorem corners_of_drawRect (nonneg : ¬ (r.width < 0 ∨ r.height < 0))
    (ran : (drawRect r).run.run g = (.ok (), g')) : g.pen.Corners r := by
  rw [drawRect, if_neg nonneg] at ran
  obtain ⟨_, right, ran⟩ := run_liftM_bind_eq_ok.mp ran
  obtain ⟨fits, rfl⟩ := Checked.result_eq_ok.mp right
  obtain ⟨_, g₁, upper, ran⟩ := run_bind_eq_ok.mp ran
  obtain ⟨_, bottom, ran⟩ := run_liftM_bind_eq_ok.mp ran
  obtain ⟨fits', rfl⟩ := Checked.result_eq_ok.mp bottom
  obtain ⟨_, right, ran⟩ := run_liftM_bind_eq_ok.mp ran
  obtain ⟨_, g₂, lower, -⟩ := run_bind_eq_ok.mp ran
  have same := (confined_drawLine r.x r.y (r.x + r.width) r.y g).pen
  rw [upper] at same
  obtain ⟨left, top, right, -⟩ := fits_of_drawLine upper
  obtain ⟨-, below, -, -⟩ := fits_of_drawLine lower
  rw [same] at below
  exact ⟨fits, fits', left, top, right, below⟩

/-- A frame is drawn just where its corners are in range. -/
theorem drawRect_exact (sound : g.Sound) (solid : g.pen.stroke = .solid)
    (wide : 0 ≤ r.width ∧ r.width ≤ 536870912) (high : 0 ≤ r.height ∧ r.height ≤ 536870912) :
    g.DrawsExactly (drawRect r) (g.pen.Corners r)
      (fun x y => g.pen.clip.Covers x y ∧ (g.pen.placed r).Frames x y)
      (fun _ _ => .ok g.pen.color) where
  returns := by
    constructor
    · rintro ⟨g', ran⟩
      have corners := corners_of_drawRect (by omega) ran
      exact ⟨corners, ((sides_exact sound solid wide high corners).returns.mp ⟨g', ran⟩).2⟩
    · rintro ⟨corners, paintable⟩
      exact (sides_exact sound solid wide high corners).returns.mpr ⟨trivial, paintable⟩
  paints g' ran :=
    (sides_exact sound solid wide high (corners_of_drawRect (by omega) ran)).paints g' ran

/-- An image at its own size is not empty. -/
theorem drawImage_exact (sound : g.Sound) {x y : Int}
    (same : r = ⟨x, y, image.width, image.height⟩) : g.DrawsExactly (drawImage image x y)
      (g.pen.Places r ∧ (g.pen.placed r).Meets g.pen.clip)
      (fun x y => (g.pen.placed r).Covers x y ∧ g.pen.clip.Covers x y)
      (image.tint false (g.pen.placed r)) := by
  subst same
  have visible : Rect.isEmpty ⟨x, y, image.width, image.height⟩ = false := by
    have width_pos := image.width_pos
    have height_pos := image.height_pos
    simp only [Rect.isEmpty, Bool.or_eq_false_iff, decide_eq_false_iff_not]
    omega
  refine (drawImageScaled_exact sound).congr ?_ fun _ _ => Iff.rfl
  simp only [visible, Bool.false_eq_true, false_or]

end Draw

namespace Graphics

variable {g g' : Graphics}

/-- What each shape sets of the image, seen from the origin and cut to the clip. In an image that 32
bits can count all pixels are within reach, and such an image has a colour for every pixel of the
place that it is stretched over. -/
structure ShapesExact (g : Graphics) : Prop where
  full : FullAlpha g.pen.color
  within : ∀ x y, g.pen.clip.Covers x y → g.target.Holds x y
  reaches : g.target.Small → ∀ x y, g.target.Reaches x y
  fill : ∀ r, g.DrawsExactly (Draw.fillRect r)
    (g.pen.Places r ∧ (g.pen.placed r).Meets g.pen.clip)
    (fun x y => (g.pen.placed r).Covers x y ∧ g.pen.clip.Covers x y) (fun _ _ => .ok g.pen.color)
  frame : ∀ r : Rect, g.pen.stroke = .solid → 0 ≤ r.width ∧ r.width ≤ 536870912 →
    0 ≤ r.height ∧ r.height ≤ 536870912 → g.DrawsExactly (Draw.drawRect r) (g.pen.Corners r)
      (fun x y => g.pen.clip.Covers x y ∧ (g.pen.placed r).Frames x y)
      (fun _ _ => .ok g.pen.color)
  unframed : ∀ r : Rect, r.width < 0 ∨ r.height < 0 →
    (Draw.drawRect r).run.run g = (.ok (), g)
  image : ∀ (image : Image) (x y : Int) (r : Rect), r = ⟨x, y, image.width, image.height⟩ →
    g.DrawsExactly (Draw.drawImage image x y)
      (g.pen.Places r ∧ (g.pen.placed r).Meets g.pen.clip)
      (fun x y => (g.pen.placed r).Covers x y ∧ g.pen.clip.Covers x y)
      (image.tint false (g.pen.placed r))
  stretched : ∀ (image : Image) (r : Rect) (filter : Bool),
    g.DrawsExactly (Draw.drawImageScaled image r filter)
      (r.isEmpty = true ∨ g.pen.Places r ∧ (g.pen.placed r).Meets g.pen.clip)
      (fun x y => (g.pen.placed r).Covers x y ∧ g.pen.clip.Covers x y)
      (image.tint filter (g.pen.placed r))
  tints : ∀ (image : Image) (place : Rect) (filter : Bool), image.Stretchable filter →
    place.width ≤ greatestInt → place.height ≤ greatestInt →
    ∀ x y, place.Covers x y → ∃ c, image.tint filter place x y = .ok c

theorem Sound.shapesExact (sound : g.Sound) : g.ShapesExact where
  full := sound.alpha
  within x y := sound.holds
  reaches small := small.reaches
  fill := Draw.fillRect_exact sound
  frame r solid wide high := Draw.drawRect_exact sound solid wide high
  unframed r negative := by
    rw [Draw.drawRect_of_negative negative]
    rfl
  image image x y r same := Draw.drawImage_exact sound same
  stretched image r filter := Draw.drawImageScaled_exact sound
  tints image place filter stretchable wide high x y covers :=
    stretchable.exists_tint wide high covers

/-- At none of the drawings the clip has the pixel. -/
def Spares (x y : Int) : Graphics → List Drawing → Prop
  | _, [] => True
  | g, drawing :: drawings =>
    ¬ g.pen.clip.Covers x y ∧ Spares x y (g.draw drawing).2 drawings

/-- Outside the clip no drawing changes a pixel, unless it clears the image. -/
theorem Effect.pixel?_outside (effect : g.Effect g') {x y : Int}
    (outside : ¬ g.pen.clip.Covers x y) : g'.target.pixel? x y = g.target.pixel? x y := by
  cases effect with
  | paint confined => exact confined.outside x y outside
  | repen | clip | cut | reset => rfl

theorem pixel?_drawAll (drawings : List Drawing)
    (calm : ∀ drawing ∈ drawings, ∀ color, drawing ≠ .clear color) {x y : Int}
    (spares : g.Spares x y drawings) :
    (g.drawAll drawings).2.target.pixel? x y = g.target.pixel? x y := by
  induction drawings generalizing g with
  | nil => rfl
  | cons drawing drawings ih =>
    have first := (effect_draw g (calm drawing List.mem_cons_self)).pixel?_outside spares.1
    have rest := ih (fun later mem => calm later (List.mem_cons_of_mem _ mem)) spares.2
    exact rest.trans first

/-- Shapes have just their pixels, and what is drawn in turn leaves alone the pixels that no clip
has had on the way. A shape comes to its end just where its numbers are in range and its pixels can
be painted. -/
theorem shapes_exact (reachable : g.Reachable) : g.ShapesExact ∧
    ∀ drawings : List Drawing, (∀ drawing ∈ drawings, ∀ color, drawing ≠ .clear color) →
      ∀ x y, g.Spares x y drawings →
        (g.drawAll drawings).2.target.pixel? x y = g.target.pixel? x y :=
  ⟨reachable.sound.shapesExact, fun drawings calm _ _ => pixel?_drawAll drawings calm⟩

/-- A clip away from the corner of the image, seen from an origin next to it. -/
def clippedBesideCorner : Graphics :=
  ((((Graphics.on (.blank 8 6)).draw (.setColor 0xFF0000)).2.draw (.moveOrigin 1 1)).2.draw
    (.clipRect ⟨0, 0, 4, 3⟩)).2

/-- Two sides of a frame are outside the clip, and the pixels of the others are drawn; what they
surround is left alone. -/
theorem shapes_exact_clippedBesideCorner :
    clippedBesideCorner.pen.clip = ⟨1, 1, 4, 3⟩ ∧
    (∃ g', (Draw.drawRect ⟨-1, 1, 3, 4⟩).run.run clippedBesideCorner = (.ok (), g') ∧
      g'.target.pixel? 3 3 = some 0xFFFF0000 ∧ g'.target.pixel? 2 3 = some opaqueWhite ∧
      g'.target.pixel? 0 2 = some opaqueWhite) ∧
    (clippedBesideCorner.drawAll [.fillRect ⟨-5, -5, 20, 20⟩, .reset]).2.target.pixel? 0 5 =
      some opaqueWhite := by
  have reachable : clippedBesideCorner.Reachable :=
    .draw (.draw (.draw (.on (by decide) (by decide)) _) _) _
  have calm : ∀ drawing ∈ [Drawing.fillRect ⟨-5, -5, 20, 20⟩, .reset],
      ∀ color, drawing ≠ .clear color := by
    simp
  obtain ⟨shapes, outside⟩ := shapes_exact reachable
  have frame := shapes.frame ⟨-1, 1, 3, 4⟩ rfl (by decide) (by decide)
  have corners : clippedBesideCorner.pen.Corners ⟨-1, 1, 3, 4⟩ := by constructor <;> decide +kernel
  obtain ⟨g', ran⟩ := frame.returns.mpr
    ⟨corners, fun x y _ => Draw.paintable_ok.mpr (shapes.reaches (by decide +kernel) x y)⟩
  have paints := frame.paints g' ran
  refine ⟨rfl, ⟨g', ran, ?_, ?_, ?_⟩, ?_⟩
  · obtain ⟨color, computed, pixel⟩ := paints.inside 3 3 ⟨by decide +kernel, by decide +kernel⟩
    cases computed
    exact pixel
  · exact (paints.outside 2 3 fun inside => absurd inside.2 (by decide +kernel)).trans rfl
  · exact (paints.outside 0 2 fun inside => absurd inside.1 (by decide +kernel)).trans rfl
  · exact (outside _ calm 0 5 ⟨by decide +kernel, by decide +kernel, trivial⟩).trans rfl

end Graphics

end Handset
