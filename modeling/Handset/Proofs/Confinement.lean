import Handset.Proofs.Reach
import Handset.Proofs.Screen

/-! What drawings change. Whatever shape an application draws, and also where its drawing faults on
the way, no pixel outside the clip is changed, nor the pen, nor the sides of the image. All else that
it can do, clearing the image apart, concerns the pen. -/

namespace Handset

/-- Where a rectangle given from the origin lies on the image, in exact arithmetic. -/
def Pen.placed (pen : Pen) (r : Rect) : Rect :=
  r.moved pen.originX pen.originY

/-- The corner of the rectangle has a place on the image. -/
structure Pen.Places (pen : Pen) (r : Rect) : Prop where
  left : Checked.Fits (pen.placed r).x
  top : Checked.Fits (pen.placed r).y

theorem Pen.place_eq_ok {pen : Pen} {r place : Rect} :
    pen.place r = .ok place ↔ pen.Places r ∧ place = pen.placed r :=
  Rect.shift_eq_ok.trans (and_congr_left fun _ => ⟨fun h => ⟨h.1, h.2⟩, fun h => ⟨h.1, h.2⟩⟩)

/-- With the origin in the corner of the image, a rectangle lies where it is given. -/
theorem Pen.placed_of_corner {pen : Pen} (origin : pen.originX = 0 ∧ pen.originY = 0) (r : Rect) :
    pen.placed r = r := by
  rw [placed, Rect.moved, origin.1, origin.2, Int.add_zero, Int.add_zero]

/-- Nothing has changed but pixels in the clip. -/
structure Graphics.Confined (g g' : Graphics) : Prop where
  pen : g'.pen = g.pen
  size : g'.target.size = g.target.size
  outside : ∀ x y, ¬ g.pen.clip.Covers x y → g'.target.pixel? x y = g.target.pixel? x y

namespace Graphics

variable {g g₁ g' : Graphics}

theorem Confined.refl (g : Graphics) : g.Confined g :=
  ⟨rfl, rfl, fun _ _ _ => rfl⟩

theorem Confined.trans (first : g.Confined g₁) (second : g₁.Confined g') : g.Confined g' where
  pen := second.pen.trans first.pen
  size := second.size.trans first.size
  outside x y outside := by
    have outside' : ¬ g₁.pen.clip.Covers x y := by rwa [first.pen]
    exact (second.outside x y outside').trans (first.outside x y outside)

theorem confined_set {x y : Int} (inside : g.pen.clip.Covers x y) (color : UInt32) :
    g.Confined { g with target := g.target.set x y color } where
  pen := rfl
  size := by simp [Image.size]
  outside u v outside := by
    rw [Image.pixel?_set, if_neg]
    rintro ⟨-, rfl, rfl⟩
    exact outside inside

end Graphics

/-- The pixels of a region have got the colours that are computed for them, and nothing else has
changed. -/
structure Graphics.Paints (g : Graphics) (region : Int → Int → Prop)
    (color : Int → Int → Except Fault UInt32) (g' : Graphics) : Prop where
  pen : g'.pen = g.pen
  size : g'.target.size = g.target.size
  inside : ∀ x y, region x y → ∃ c, color x y = .ok c ∧ g'.target.pixel? x y = some c
  outside : ∀ x y, ¬ region x y → g'.target.pixel? x y = g.target.pixel? x y

namespace Graphics

variable {g g₁ g' : Graphics} {region region' : Int → Int → Prop}
  {color : Int → Int → Except Fault UInt32}

theorem paints_nothing (g : Graphics) (none : ∀ x y, ¬ region x y) : g.Paints region color g :=
  ⟨rfl, rfl, fun x y inside => absurd inside (none x y), fun _ _ _ => rfl⟩

theorem Paints.congr (paints : g.Paints region color g')
    (same : ∀ x y, region' x y ↔ region x y) : g.Paints region' color g' where
  pen := paints.pen
  size := paints.size
  inside x y inside := paints.inside x y ((same x y).mp inside)
  outside x y outside := paints.outside x y (mt (same x y).mpr outside)

/-- Two regions one after the other are one region. -/
theorem Paints.union (first : g.Paints region color g₁) (second : g₁.Paints region' color g') :
    g.Paints (fun x y => region x y ∨ region' x y) color g' where
  pen := second.pen.trans first.pen
  size := second.size.trans first.size
  inside x y inside := by
    by_cases again : region' x y
    · exact second.inside x y again
    · simp only [second.outside x y again]
      exact first.inside x y (inside.resolve_right again)
  outside x y outside := by
    rw [second.outside x y fun again => outside (.inr again)]
    exact first.outside x y fun once => outside (.inl once)

theorem paints_setArea {area : Rect} {color : Int → Int → Except Fault UInt32}
    (within : ∀ x y, area.Covers x y → g.target.Holds x y)
    (paintable : ∀ x y, area.Covers x y → Draw.Paintable g.target color x y) :
    g.Paints area.Covers color
      { g with target := g.target.setArea area (Draw.shade color) } where
  pen := rfl
  size := Image.size_setArea ..
  inside x y inside := by
    obtain ⟨⟨c, computed⟩, -⟩ := paintable x y inside
    refine ⟨c, computed, ?_⟩
    rw [Image.pixel?_setArea, if_pos ⟨within x y inside, inside⟩, Draw.shade_eq computed]
  outside x y outside := by
    rw [Image.pixel?_setArea, if_neg fun inside => outside inside.2]

/-- What is painted of a place is what the clip has of it. -/
theorem paints_meet {place : Rect} {color : Int → Int → Except Fault UInt32}
    (within : ∀ x y, g.pen.clip.Covers x y → g.target.Holds x y)
    (paintable : ∀ x y, (place.meet g.pen.clip).Covers x y → Draw.Paintable g.target color x y) :
    g.Paints (fun x y => place.Covers x y ∧ g.pen.clip.Covers x y) color
      { g with target := g.target.setArea (place.meet g.pen.clip) (Draw.shade color) } :=
  (paints_setArea (fun x y inside => within x y (Rect.covers_meet.mp inside).2) paintable).congr
    fun _ _ => Rect.covers_meet.symm

theorem paints_set {x y : Int} (holds : g.target.Holds x y) (color : UInt32) :
    g.Paints (fun u v => u = x ∧ v = y) (fun _ _ => .ok color)
      { g with target := g.target.set x y color } where
  pen := rfl
  size := by simp [Image.size]
  inside u v inside := by
    have holds : g.target.Holds u v := by rwa [inside.1, inside.2]
    exact ⟨color, rfl, by rw [Image.pixel?_set, if_pos ⟨holds, inside⟩]⟩
  outside u v outside := by
    rw [Image.pixel?_set, if_neg fun inside => outside inside.2]

end Graphics

namespace Draw

variable {α β : Type} {drawing : Draw α} {next : α → Draw β} {g : Graphics}

/-- What comes after a confined drawing has to be confined where that one ends only. -/
theorem leads_confined_bind (first : drawing.Leads Graphics.Confined g)
    (rest : ∀ a g₁, g.Confined g₁ → (next a).Leads Graphics.Confined g₁) :
    (drawing >>= next).Leads Graphics.Confined g := by
  unfold Leads at first rest ⊢
  rw [run_bind]
  cases ran : drawing.run.run g with
  | mk result g₁ =>
    rw [ran] at first
    cases result with
    | error fault => exact first
    | ok a => exact first.trans (rest a g₁ first)

/-- Whether it comes back or faults, the drawing changes nothing but pixels in the clip. -/
def Confined (drawing : Draw α) : Prop :=
  ∀ g, drawing.Leads Graphics.Confined g

theorem confined_pure (a : α) : (pure a : Draw α).Confined :=
  Graphics.Confined.refl

theorem Confined.bind (first : drawing.Confined) (rest : ∀ a, (next a).Confined) :
    (drawing >>= next).Confined :=
  fun g => leads_confined_bind (first g) fun a g₁ _ => rest a g₁

theorem confined_liftM_bind {result : Except Fault α} (rest : ∀ a, (next a).Confined) :
    (liftM result >>= next : Draw β).Confined :=
  fun g => leads_liftM_bind (.refl g) fun a _ => rest a g

theorem confined_pen_bind {next : Pen → Draw β} (rest : ∀ pen, (next pen).Confined) :
    (pen >>= next).Confined :=
  fun g => rest g.pen g

theorem leads_setPixel {x y : Int} (inside : g.pen.clip.Covers x y) (color : UInt32) :
    (setPixel x y color).Leads Graphics.Confined g := by
  refine leads_get_bind ?_
  refine leads_liftM_bind (.refl g) fun place found => ?_
  obtain ⟨-, rfl⟩ := Image.place?_eq_ok.mp found
  have set := Graphics.confined_set inside color
  unfold Image.set at set
  by_cases holds : g.target.Holds x y
  · simp only [holds, if_true] at set ⊢
    exact set
  · simp only [holds, if_false]
    exact .refl g

/-- Each of the drawings begins with the pen that the first has. -/
theorem leads_forEach {drawing : Int → Draw Unit} {count : Nat} {start : Int}
    (each : ∀ n, start ≤ n → n < start + count → ∀ g₁ : Graphics, g₁.pen = g.pen →
      (drawing n).Leads Graphics.Confined g₁) :
    (forEach drawing count start).Leads Graphics.Confined g := by
  induction count generalizing start g with
  | zero => exact .refl g
  | succ count ih =>
    refine leads_confined_bind (each start (Int.le_refl start) (by omega) g rfl)
      fun _ g₁ confined => ih fun n le lt g₂ same => ?_
    exact each n (by omega) (by omega) g₂ (same.trans confined.pen)

theorem leads_paintArea {area : Rect} (color : Int → Int → Except Fault UInt32)
    (within : ∀ x y, area.Covers x y → g.pen.clip.Covers x y) :
    (paintArea area color).Leads Graphics.Confined g := by
  refine leads_forEach fun y top bottom g₁ same => ?_
  refine leads_forEach fun x left right g₂ same' => ?_
  refine leads_liftM_bind (.refl g₂) fun c _ => leads_setPixel ?_ c
  rw [same', same]
  exact within x y ⟨left, by omega, top, by omega⟩

theorem confined_plot (x y : Int) : (plot x y).Confined := by
  intro g
  refine leads_pen_bind ?_
  refine leads_liftM_bind (.refl g) fun inside answered => ?_
  cases inside with
  | false => exact .refl g
  | true => exact leads_setPixel ((Rect.contains_eq_ok answered).mp rfl) _

theorem confined_follow (dotted : Bool) (fuel index : Nat) (line : Line) :
    (follow dotted fuel index line).Confined := by
  induction fuel generalizing index line with
  | zero => exact confined_pure ()
  | succ fuel ih =>
    rw [follow_succ]
    refine Confined.bind ?_ fun _ => ?_
    · unfold mark
      split
      · exact confined_plot _ _
      · exact confined_pure ()
    · split
      · exact confined_pure ()
      · exact confined_liftM_bind fun line => ih _ line

theorem confined_drawLine (x₁ y₁ x₂ y₂ : Int) : (drawLine x₁ y₁ x₂ y₂).Confined := by
  refine confined_pen_bind fun p => ?_
  refine confined_liftM_bind fun _ => ?_
  refine confined_liftM_bind fun _ => ?_
  refine confined_liftM_bind fun _ => ?_
  refine confined_liftM_bind fun _ => ?_
  exact confined_liftM_bind fun line => confined_follow _ _ _ _

theorem confined_drawRect (r : Rect) : (drawRect r).Confined := by
  unfold drawRect
  split
  · exact confined_pure ()
  · refine confined_liftM_bind fun _ => ?_
    refine (confined_drawLine _ _ _ _).bind fun _ => ?_
    refine confined_liftM_bind fun _ => ?_
    refine confined_liftM_bind fun _ => ?_
    refine (confined_drawLine _ _ _ _).bind fun _ => ?_
    refine confined_liftM_bind fun _ => ?_
    refine (confined_drawLine _ _ _ _).bind fun _ => ?_
    refine confined_liftM_bind fun _ => ?_
    exact confined_liftM_bind fun _ => confined_drawLine _ _ _ _

theorem confined_fillRect (r : Rect) : (fillRect r).Confined := by
  intro g
  refine leads_pen_bind ?_
  refine leads_liftM_bind (.refl g) fun place _ => ?_
  refine leads_liftM_bind (.refl g) fun area common => ?_
  obtain ⟨-, rfl⟩ := Rect.intersection_eq_ok.mp common
  exact leads_paintArea _ fun x y inside => (Rect.covers_meet.mp inside).2

theorem confined_fillAll : fillAll.Confined :=
  fun g => leads_get_bind (confined_fillRect g.target.bounds g)

theorem confined_drawImageScaled (image : Image) (r : Rect) (filter : Bool) :
    (drawImageScaled image r filter).Confined := by
  intro g
  unfold drawImageScaled
  split
  · exact confined_pure () g
  · refine leads_pen_bind ?_
    refine leads_liftM_bind (.refl g) fun place _ => ?_
    refine leads_liftM_bind (.refl g) fun area common => ?_
    obtain ⟨-, rfl⟩ := Rect.intersection_eq_ok.mp common
    exact leads_paintArea _ fun x y inside => (Rect.covers_meet.mp inside).2

end Draw

/-- Every bit of the alpha is set. -/
def FullAlpha (color : UInt32) : Prop :=
  color &&& 0xFF000000 = 0xFF000000

def Graphics.withClip (g : Graphics) (clip : Rect) : Graphics :=
  { g with pen := { g.pen with clip } }

/-- What a drawing can do that does not clear the image. A clip comes of a rectangle whose corner
has a place on it. -/
inductive Graphics.Effect (g : Graphics) : Graphics → Prop
  | paint {g' : Graphics} (confined : g.Confined g') : Effect g g'
  | repen {pen : Pen} (clip : pen.clip = g.pen.clip)
      (color : pen.color = g.pen.color ∨ FullAlpha pen.color) : Effect g { g with pen }
  | clip {r : Rect} (places : g.pen.Places r) (meets : (g.pen.placed r).Meets g.target.bounds) :
      Effect g (g.withClip ((g.pen.placed r).meet g.target.bounds))
  | cut {r : Rect} (places : g.pen.Places r) (meets : g.pen.clip.Meets (g.pen.placed r)) :
      Effect g (g.withClip (g.pen.clip.meet (g.pen.placed r)))
  | reset : Effect g { g with pen := freshPen g.target }

namespace Graphics

variable {g g' : Graphics}

theorem Effect.still (g : Graphics) : g.Effect g :=
  .paint (.refl g)

theorem Effect.size (effect : g.Effect g') : g'.target.size = g.target.size := by
  cases effect with
  | paint confined => exact confined.size
  | repen | clip | cut | reset => rfl

end Graphics

namespace Draw

variable {g g' : Graphics} {r : Rect}

theorem setClip_eq_ok : (setClip r).run.run g = (.ok (), g') ↔
    (g.pen.Places r ∧ (g.pen.placed r).Meets g.target.bounds) ∧
      g' = g.withClip ((g.pen.placed r).meet g.target.bounds) := by
  simp only [setClip, run_pen_bind, run_liftM_bind_eq_ok, run_get_bind, run_setPen_eq_ok,
    Pen.place_eq_ok, Rect.intersection_eq_ok]
  constructor
  · rintro ⟨_, ⟨places, rfl⟩, _, ⟨meets, rfl⟩, rfl⟩
    exact ⟨⟨places, meets⟩, rfl⟩
  · rintro ⟨⟨places, meets⟩, rfl⟩
    exact ⟨_, ⟨places, rfl⟩, _, ⟨meets, rfl⟩, rfl⟩

theorem clipRect_eq_ok : (clipRect r).run.run g = (.ok (), g') ↔
    (g.pen.Places r ∧ g.pen.clip.Meets (g.pen.placed r)) ∧
      g' = g.withClip (g.pen.clip.meet (g.pen.placed r)) := by
  simp only [clipRect, run_pen_bind, run_liftM_bind_eq_ok, run_setPen_eq_ok, Pen.place_eq_ok,
    Rect.intersection_eq_ok]
  constructor
  · rintro ⟨_, ⟨places, rfl⟩, _, ⟨meets, rfl⟩, rfl⟩
    exact ⟨⟨places, meets⟩, rfl⟩
  · rintro ⟨⟨places, meets⟩, rfl⟩
    exact ⟨_, ⟨places, rfl⟩, _, ⟨meets, rfl⟩, rfl⟩

theorem effect_setClip (r : Rect) (g : Graphics) : (setClip r).Leads Graphics.Effect g := by
  refine leads_pen_bind ?_
  refine leads_liftM_bind (.still g) fun place placed => ?_
  obtain ⟨places, rfl⟩ := Pen.place_eq_ok.mp placed
  refine leads_get_bind ?_
  refine leads_liftM_bind (.still g) fun clip common => ?_
  obtain ⟨meets, rfl⟩ := Rect.intersection_eq_ok.mp common
  exact .clip places meets

theorem effect_clipRect (r : Rect) (g : Graphics) : (clipRect r).Leads Graphics.Effect g := by
  refine leads_pen_bind ?_
  refine leads_liftM_bind (.still g) fun place placed => ?_
  obtain ⟨places, rfl⟩ := Pen.place_eq_ok.mp placed
  refine leads_liftM_bind (.still g) fun clip common => ?_
  obtain ⟨meets, rfl⟩ := Rect.intersection_eq_ok.mp common
  exact .cut places meets

/-- The origin moves and nothing else, but it may have moved along one axis only. -/
theorem moved_moveOrigin (dx dy : Int) (g : Graphics) :
    (moveOrigin dx dy).Leads
      (fun g g' => ∃ originX originY, g' = { g with pen := { g.pen with originX, originY } }) g := by
  refine leads_pen_bind ?_
  refine leads_liftM_bind ⟨_, _, rfl⟩ fun originX _ => ?_
  refine leads_setPen_bind ?_
  refine leads_liftM_bind ⟨_, _, rfl⟩ fun originY _ => ?_
  exact ⟨originX, originY, rfl⟩

theorem effect_moveOrigin (dx dy : Int) (g : Graphics) :
    (moveOrigin dx dy).Leads Graphics.Effect g := by
  obtain ⟨originX, originY, moved⟩ := moved_moveOrigin dx dy g
  unfold Leads
  rw [moved]
  exact .repen rfl (.inl rfl)

theorem fullAlpha_setColor (rgb : UInt32) : FullAlpha (0xFF000000 ||| (rgb &&& 0xFFFFFF)) := by
  unfold FullAlpha
  rw [UInt32.and_comm]
  apply UInt32.eq_of_toBitVec_eq
  ext i
  simp only [UInt32.toBitVec_and, UInt32.toBitVec_or, BitVec.getElem_and, BitVec.getElem_or,
    Bool.and_eq_left_iff_imp, Bool.or_eq_true]
  exact .inl

end Draw

/-- Each drawing has one of the effects, unless it clears the image. -/
theorem Graphics.effect_draw (g : Graphics) {drawing : Drawing}
    (calm : ∀ color, drawing ≠ .clear color) : g.Effect (g.draw drawing).2 := by
  have performed : (g.draw drawing).2 = (drawing.perform.run.run g).2 := by
    unfold draw
    split
    · rename_i ran
      rw [ran]
    · rename_i ran
      rw [ran]
  rw [performed]
  cases drawing with
  | setColor rgb => exact .repen rfl (.inr (Draw.fullAlpha_setColor rgb))
  | setColorRgb red green blue => exact .repen rfl (.inr (Draw.fullAlpha_setColor _))
  | setFont font => exact .repen rfl (.inl rfl)
  | setStroke stroke => exact .repen rfl (.inl rfl)
  | moveOrigin dx dy => exact Draw.effect_moveOrigin dx dy g
  | setClip r => exact Draw.effect_setClip r g
  | clipRect r => exact Draw.effect_clipRect r g
  | fillRect r => exact .paint (Draw.confined_fillRect r g)
  | drawRect r => exact .paint (Draw.confined_drawRect r g)
  | clear color => exact absurd rfl (calm color)
  | fillAll => exact .paint (Draw.confined_fillAll g)
  | drawLine x₁ y₁ x₂ y₂ => exact .paint (Draw.confined_drawLine x₁ y₁ x₂ y₂ g)
  | drawImage image x y => exact .paint (Draw.confined_drawImageScaled image _ _ g)
  | drawImageScaled image r filter => exact .paint (Draw.confined_drawImageScaled image r filter g)
  | reset => exact .reset
  | report => exact .still g

end Handset
