import Handset.Proofs.Pictures

/-! The clip of a drawing, as the set of pixels that may be drawn on. Whatever was drawn before, it
is empty or lies within the image. -/

namespace Handset

open Checked (Fits)

/-- A clip is empty or lies within the bounds of its image. If it is empty it may lie anywhere to the
right and below. -/
structure Rect.Crops (clip bounds : Rect) : Prop extends clip.Modest where
  across : clip.width = 0 ∨ clip.x + clip.width ≤ bounds.width
  down : clip.height = 0 ∨ clip.y + clip.height ≤ bounds.height

namespace Rect

variable {clip place : Rect} {image : Image}

theorem crops_bounds (width : image.width ≤ greatestInt) (height : image.height ≤ greatestInt) :
    image.bounds.Crops image.bounds := by
  constructor
  · constructor <;> simp only [Image.bounds] <;> omega
  · simp only [Image.bounds]
    omega
  · simp only [Image.bounds]
    omega

theorem crops_meet_bounds (left : Fits place.x) (top : Fits place.y)
    (width : image.width ≤ greatestInt) (height : image.height ≤ greatestInt) :
    (place.meet image.bounds).Crops image.bounds := by
  unfold Fits at left top
  constructor
  · constructor <;> simp only [meet, Image.bounds] <;> omega
  · simp only [meet, Image.bounds]
    omega
  · simp only [meet, Image.bounds]
    omega

theorem Crops.meet {bounds : Rect} (crops : clip.Crops bounds) (left : Fits place.x)
    (top : Fits place.y) : (clip.meet place).Crops bounds := by
  obtain ⟨⟨left', top', wide, high, right, bottom⟩, across, down⟩ := crops
  unfold Fits at left top
  constructor
  · constructor <;> simp only [Rect.meet] <;> omega
  · simp only [Rect.meet]
    omega
  · simp only [Rect.meet]
    omega

end Rect

namespace Graphics

variable {g g' : Graphics} {x y : Int}

/-- The clip crops an image of 32-bit sides, and the pen draws with full alpha. -/
structure Sound (g : Graphics) : Prop where
  crops : g.pen.clip.Crops g.target.bounds
  width : g.target.width ≤ greatestInt
  height : g.target.height ≤ greatestInt
  alpha : FullAlpha g.pen.color

theorem sound_fresh {image : Image} (width : image.width ≤ greatestInt)
    (height : image.height ≤ greatestInt) : Sound ⟨freshPen image, image⟩ :=
  ⟨Rect.crops_bounds width height, width, height, UInt32.and_self⟩

theorem Sound.of_size (sound : g.Sound) (pen : g'.pen = g.pen)
    (size : g'.target.size = g.target.size) : g'.Sound where
  crops := by
    rw [pen, Image.bounds_of_size size]
    exact sound.crops
  width := Int.le_trans (Int.le_of_eq (congrArg Size.width size)) sound.width
  height := Int.le_trans (Int.le_of_eq (congrArg Size.height size)) sound.height
  alpha := by
    rw [pen]
    exact sound.alpha

/-- Whatever is drawn, the clip goes on to crop the image. -/
theorem Effect.sound (effect : g.Effect g') (sound : g.Sound) : g'.Sound := by
  cases effect with
  | paint confined => exact sound.of_size confined.pen confined.size
  | reset => exact sound_fresh sound.width sound.height
  | @repen pen clip color =>
    have crops : pen.clip.Crops g.target.bounds := by
      rw [clip]
      exact sound.crops
    refine ⟨crops, sound.width, sound.height, ?_⟩
    rcases color with same | full
    · exact same ▸ sound.alpha
    · exact full
  | clip places meets =>
    exact ⟨Rect.crops_meet_bounds places.left places.top sound.width sound.height, sound.width,
      sound.height, sound.alpha⟩
  | cut places meets =>
    exact ⟨sound.crops.meet places.left places.top, sound.width, sound.height, sound.alpha⟩

/-- What drawings make of an image that is new to them. -/
inductive Reachable : Graphics → Prop
  | on {image : Image} (width : image.width ≤ greatestInt) (height : image.height ≤ greatestInt) :
      Reachable (.on image)
  | draw {g : Graphics} (reachable : Reachable g) (drawing : Drawing) :
      Reachable (g.draw drawing).2

theorem Reachable.sound (reachable : g.Reachable) : g.Sound := by
  induction reachable with
  | on width height => exact sound_fresh width height
  | draw _ drawing ih =>
    by_cases clears : ∃ color, drawing = .clear color
    · obtain ⟨color, rfl⟩ := clears
      exact ih.of_size rfl rfl
    · exact (effect_draw _ (not_exists.mp clears)).sound ih

/-- A pixel in the clip is one of the image. -/
theorem Sound.holds (sound : g.Sound) (inside : g.pen.clip.Covers x y) : g.target.Holds x y := by
  obtain ⟨⟨left, top, wide, high, -, -⟩, across, down⟩ := sound.crops
  simp only [Rect.Covers, Image.Holds, Image.bounds] at *
  omega

end Graphics

namespace Rect

variable {clip place : Rect} {image : Image}

/-- No part of the image is far from what has its edges in range. -/
theorem Edged.meets_bounds (edged : place.Edged) (width : image.width ≤ greatestInt)
    (height : image.height ≤ greatestInt) : place.Meets image.bounds := by
  refine (edged.meets_iff (crops_bounds width height).edged).mpr ?_
  have width_pos := image.width_pos
  have height_pos := image.height_pos
  obtain ⟨left, top, wide, high, right, bottom⟩ := edged
  simp only [Fits, leastInt, greatestInt] at *
  constructor <;> simp only [Image.bounds, leastInt] <;> omega

theorem Crops.meet_bounds (crops : clip.Crops image.bounds) : clip.meet image.bounds = clip := by
  obtain ⟨⟨left, top, wide, high, right, bottom⟩, across, down⟩ := crops
  obtain ⟨x, y, width, height⟩ := clip
  simp only [Rect.meet, Image.bounds, mk.injEq] at *
  omega

end Rect

namespace Pen

variable {pen pen' : Pen} {r : Rect}

theorem visibleClip_eq_ok : pen.visibleClip = .ok r ↔
    (Fits (pen.clip.x - pen.originX) ∧ Fits (pen.clip.y - pen.originY)) ∧
      r = pen.clip.moved (-pen.originX) (-pen.originY) := by
  constructor
  · intro seen
    obtain ⟨x, across, seen⟩ := Checked.bind_eq_ok.mp seen
    obtain ⟨y, down, seen⟩ := Checked.bind_eq_ok.mp seen
    cases seen
    obtain ⟨fits, rfl⟩ := Checked.result_eq_ok.mp across
    obtain ⟨fits', rfl⟩ := Checked.result_eq_ok.mp down
    exact ⟨⟨fits, fits'⟩, rfl⟩
  · rintro ⟨⟨fits, fits'⟩, rfl⟩
    have x : Checked.sub pen.clip.x pen.originX = .ok _ := Checked.result_of_mem fits
    have y : Checked.sub pen.clip.y pen.originY = .ok _ := Checked.result_of_mem fits'
    simp only [visibleClip, x, y]
    rfl

/-- What is seen of the clip lies where the clip does. -/
theorem placed_visibleClip (seen : pen.visibleClip = .ok r) (across : pen'.originX = pen.originX)
    (down : pen'.originY = pen.originY) : pen'.placed r = pen.clip := by
  obtain ⟨-, rfl⟩ := visibleClip_eq_ok.mp seen
  simp only [placed, Rect.moved, across, down, Int.neg_add_cancel_right]

end Pen

namespace Draw

variable {g g' : Graphics} {r : Rect} {rs : List Rect}

theorem run_setClip (sound : g.Sound) (edged : (g.pen.placed r).Edged) :
    (setClip r).run.run g = (.ok (), g.withClip ((g.pen.placed r).meet g.target.bounds)) :=
  setClip_eq_ok.mpr
    ⟨⟨⟨edged.left, edged.top⟩, edged.meets_bounds sound.width sound.height⟩, rfl⟩

/-- The clip is as it was seen, whatever has become of it since. -/
theorem setClip_visibleClip (sound : g.Sound) (seen : g.pen.visibleClip = .ok r)
    (size : g'.target.size = g.target.size) (across : g'.pen.originX = g.pen.originX)
    (down : g'.pen.originY = g.pen.originY) :
    (setClip r).run.run g' = (.ok (), g'.withClip g.pen.clip) := by
  have bounds := Image.bounds_of_size size
  have placed := Pen.placed_visibleClip seen across down
  have edged := sound.crops.edged
  have meets := edged.meets_bounds sound.width sound.height
  refine setClip_eq_ok.mpr ⟨⟨⟨?_, ?_⟩, ?_⟩, ?_⟩
  · rw [placed]
    exact edged.left
  · rw [placed]
    exact edged.top
  · rwa [placed, bounds]
  · rw [placed, bounds, sound.crops.meet_bounds]

theorem run_clipRect_iff (sound : g.Sound) (edged : (g.pen.placed r).Edged) :
    (clipRect r).run.run g = (.ok (), g.withClip (g.pen.clip.meet (g.pen.placed r))) ↔
      g.pen.clip.Near (g.pen.placed r) := by
  rw [clipRect_eq_ok, ← sound.crops.edged.meets_iff edged]
  exact ⟨fun h => h.1.2, fun meets => ⟨⟨⟨edged.left, edged.top⟩, meets⟩, rfl⟩⟩

theorem run_clipRect_of_far (sound : g.Sound) (edged : (g.pen.placed r).Edged)
    (far : ¬ g.pen.clip.Near (g.pen.placed r)) :
    (clipRect r).run.run g = (.error (.overflow .subtract), g) := by
  have placed : g.pen.place r = .ok (g.pen.placed r) :=
    Pen.place_eq_ok.mpr ⟨⟨edged.left, edged.top⟩, rfl⟩
  have apart := sound.crops.edged.intersection_of_not_near edged far
  simp only [clipRect, run_pen_bind, run_liftM_bind, placed, apart]

/-- Cut to one rectangle after another, a clip covers what all of them do, in whatever order. -/
theorem covers_clipRects (cut : (rs.forM clipRect).run.run g = (.ok (), g')) :
    ∃ clip, g' = g.withClip clip ∧ ∀ x y, clip.Covers x y ↔
      g.pen.clip.Covers x y ∧ ∀ r ∈ rs, (g.pen.placed r).Covers x y := by
  induction rs generalizing g with
  | nil =>
    cases cut
    exact ⟨g'.pen.clip, rfl, fun x y => ⟨fun covers => ⟨covers, nofun⟩, And.left⟩⟩
  | cons r rs ih =>
    -- The origin stays, so that the rest lies where it did.
    rw [List.forM_eq_forM, List.forM_cons] at cut
    obtain ⟨_, g₁, first, rest⟩ := run_bind_eq_ok.mp cut
    obtain ⟨-, rfl⟩ := clipRect_eq_ok.mp first
    obtain ⟨clip, rfl, covers⟩ := ih rest
    refine ⟨clip, rfl, fun x y => ?_⟩
    rw [covers, List.forall_mem_cons, ← and_assoc]
    exact and_congr_left' Rect.covers_meet

end Draw

namespace Rect

/-- The common part has a result that says of every point that it has it just if both rectangles
say so. -/
def IntersectsExactly (a b : Rect) : Prop :=
  ∃ c, a.intersection b = .ok c ∧ ∀ x y, ∃ inside inside',
    a.contains x y = .ok inside ∧ b.contains x y = .ok inside' ∧
      c.contains x y = .ok (inside && inside')

theorem Edged.intersectsExactly_iff {a b : Rect} (edged : a.Edged) (edged' : b.Edged) :
    a.IntersectsExactly b ↔ a.Near b := by
  constructor
  · rintro ⟨c, common, -⟩
    exact (edged.meets_iff edged').mp (intersection_eq_ok.mp common).1
  · intro near
    have common := intersection_eq_ok.mpr ⟨(edged.meets_iff edged').mpr near, rfl⟩
    exact ⟨_, common, edged.contains_meet edged'⟩

/-- The edges of both rectangles are in range and they have no point in common, yet that they have
none is not found out. -/
theorem far_apart_unmet :
    (⟨2000000000, 0, 10, 10⟩ : Rect).Edged ∧ (⟨-2000000000, 0, 10, 10⟩ : Rect).Edged ∧
    (⟨2000000000, 0, 10, 10⟩ : Rect).intersection ⟨-2000000000, 0, 10, 10⟩ =
      .error (.overflow .subtract) ∧
    ¬ (⟨2000000000, 0, 10, 10⟩ : Rect).IntersectsExactly ⟨-2000000000, 0, 10, 10⟩ := by
  refine ⟨?_, ?_, rfl, ?_⟩
  · constructor <;> decide
  · constructor <;> decide
  · rintro ⟨c, common, -⟩
    cases common

end Rect

namespace Graphics

/-- The clip as a set of pixels of the image, before and after the drawings that concern it. -/
structure ClipsExactly (g : Graphics) : Prop where
  within : ∀ x y, g.pen.clip.Covers x y → g.target.Holds x y
  set : ∀ r, (g.pen.placed r).Edged → ∃ clip,
    (Draw.setClip r).run.run g = (.ok (), g.withClip clip) ∧
      ∀ x y, clip.Covers x y ↔ (g.pen.placed r).Covers x y ∧ g.target.Holds x y
  cut : ∀ r, (g.pen.placed r).Edged → g.pen.clip.Near (g.pen.placed r) → ∃ clip,
    (Draw.clipRect r).run.run g = (.ok (), g.withClip clip) ∧
      ∀ x y, clip.Covers x y ↔ g.pen.clip.Covers x y ∧ (g.pen.placed r).Covers x y
  far : ∀ r, (g.pen.placed r).Edged → ¬ g.pen.clip.Near (g.pen.placed r) →
    (Draw.clipRect r).run.run g = (.error (.overflow .subtract), g)
  cuts : ∀ (rs : List Rect) (g' : Graphics),
    (rs.forM Draw.clipRect).run.run g = (.ok (), g') → ∃ clip, g' = g.withClip clip ∧
      ∀ x y, clip.Covers x y ↔ g.pen.clip.Covers x y ∧ ∀ r ∈ rs, (g.pen.placed r).Covers x y
  moved : ∀ dx dy, ((Draw.moveOrigin dx dy).run.run g).2.pen.clip = g.pen.clip
  restored : ∀ (r : Rect) (g' : Graphics), g.pen.visibleClip = .ok r →
    g'.target.size = g.target.size → g'.pen.originX = g.pen.originX →
      g'.pen.originY = g.pen.originY →
        (Draw.setClip r).run.run g' = (.ok (), g'.withClip g.pen.clip)
  kept : ∀ r, g.pen.visibleClip = .ok r → (Draw.setClip r).run.run g = (.ok (), g)

theorem Sound.clipsExactly {g : Graphics} (sound : g.Sound) : g.ClipsExactly where
  within x y := sound.holds
  set r edged := by
    refine ⟨_, Draw.run_setClip sound edged, fun x y => ?_⟩
    rw [Rect.covers_meet, Image.holds_iff_covers]
  cut r edged near :=
    ⟨_, (Draw.run_clipRect_iff sound edged).mpr near, fun x y => Rect.covers_meet⟩
  far r edged far := Draw.run_clipRect_of_far sound edged far
  cuts rs g' := Draw.covers_clipRects
  moved dx dy := by
    obtain ⟨originX, originY, moved⟩ := Draw.moved_moveOrigin dx dy g
    rw [moved]
  restored r g' := Draw.setClip_visibleClip sound
  kept r seen := Draw.setClip_visibleClip sound seen rfl rfl rfl

/-- Rectangles intersect in the points that both have just if they are not too far apart. On this
rests what the clip of a drawing is at any time. -/
theorem clips_exact_iff {a b : Rect} (edged : a.Edged) (edged' : b.Edged) {g : Graphics}
    (reachable : g.Reachable) :
    (a.IntersectsExactly b ↔ a.Near b) ∧
    (¬ a.Near b → a.intersection b = .error (.overflow .subtract)) ∧ g.ClipsExactly :=
  ⟨edged.intersectsExactly_iff edged', edged.intersection_of_not_near edged',
    reachable.sound.clipsExactly⟩

/-- A clip right of the image, with the origin moved. -/
def offImage : Graphics :=
  (((Graphics.on (.blank 4 3)).draw (.moveOrigin 1 1)).2.draw (.clipRect ⟨9, 0, 2, 2⟩)).2

theorem clips_exact_iff_offImage :
    (⟨-5, 3, 10, 4⟩ : Rect).Edged ∧ (⟨2, 0, -3, 9⟩ : Rect).Edged ∧
    (⟨-5, 3, 10, 4⟩ : Rect).IntersectsExactly ⟨2, 0, -3, 9⟩ ∧
    offImage.pen.visibleClip = .ok ⟨9, 0, 0, 2⟩ ∧
    (Draw.setClip ⟨9, 0, 0, 2⟩).run.run offImage = (.ok (), offImage) := by
  have edged : (⟨-5, 3, 10, 4⟩ : Rect).Edged := by constructor <;> decide
  have edged' : (⟨2, 0, -3, 9⟩ : Rect).Edged := by constructor <;> decide
  have near : (⟨-5, 3, 10, 4⟩ : Rect).Near ⟨2, 0, -3, 9⟩ := by constructor <;> decide
  have reachable : offImage.Reachable := .draw (.draw (.on (by decide) (by decide)) _) _
  have seen : offImage.pen.visibleClip = .ok ⟨9, 0, 0, 2⟩ := rfl
  obtain ⟨exactly, -, clips⟩ := clips_exact_iff edged edged' reachable
  exact ⟨edged, edged', exactly.mpr near, seen, clips.kept _ seen⟩

end Graphics

end Handset
