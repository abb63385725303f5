import Handset.Proofs.Samples
import Handset.Proofs.Studio

/-! Composing comes to an end: the virtual screen is shown within the display, so that no edge of it
is out of range, and 32 bits count the pixels of both. -/

namespace Handset

namespace Rect

/-- The rectangle lies right of and below the origin, and its edges are in range. -/
structure Modest (r : Rect) : Prop where
  left : 0 ≤ r.x
  top : 0 ≤ r.y
  wide : 0 ≤ r.width
  high : 0 ≤ r.height
  right : r.x + r.width ≤ greatestInt
  bottom : r.y + r.height ≤ greatestInt

variable {r other : Rect}

theorem Modest.edged (modest : r.Modest) : r.Edged := by
  obtain ⟨left, top, wide, high, right, bottom⟩ := modest
  constructor <;> unfold Checked.Fits leastInt <;> omega

theorem Modest.meets (modest : r.Modest) (modest' : other.Modest) : r.Meets other := by
  refine (modest.edged.meets_iff modest'.edged).mpr ?_
  obtain ⟨left, top, wide, high, right, bottom⟩ := modest
  obtain ⟨left', top', wide', high', right', bottom'⟩ := modest'
  constructor <;> unfold leastInt greatestInt at * <;> omega

end Rect

namespace ScreenLayout

/-- The virtual screen is shown within the display. -/
structure Placed (layout : ScreenLayout) : Prop where
  left : 0 ≤ layout.placement.x
  top : 0 ≤ layout.placement.y
  wide : 1 ≤ layout.placement.width
  high : 1 ≤ layout.placement.height
  right : layout.placement.x + layout.placement.width ≤ layout.displayWidth
  bottom : layout.placement.y + layout.placement.height ≤ layout.displayHeight

/-- The display has no more pixels on a side than a number can count. -/
structure InRange (layout : ScreenLayout) : Prop where
  width : layout.displayWidth ≤ greatestInt
  height : layout.displayHeight ≤ greatestInt

/-- 32 bits count the pixels of the virtual screen and those of the display. If the virtual screen is
filtered, a side of it has half of the range at most. -/
structure Drawable (layout : ScreenLayout) (filter : Bool) : Prop where
  screen : layout.width * layout.height ≤ greatestInt
  display : layout.displayWidth * layout.displayHeight ≤ greatestInt
  wide : filter = true → layout.width ≤ 1073741824
  high : filter = true → layout.height ≤ 1073741824

/-- Some settings have the layout. -/
def Laid (layout : ScreenLayout) : Prop :=
  ∃ settings : Settings, settings.layout = .ok layout

/-- A display that 32 bits can count has no side that they cannot. -/
theorem Drawable.range {layout : ScreenLayout} {filter : Bool} (drawable : layout.Drawable filter)
    (placed : layout.Placed) : layout.InRange := by
  have display := drawable.display
  obtain ⟨left, top, wide, high, right, bottom⟩ := placed
  have across : 1 ≤ layout.displayWidth := by omega
  have down : 1 ≤ layout.displayHeight := by omega
  exact ⟨by nlinarith, by nlinarith⟩

end ScreenLayout

theorem clamp_mem {high : Int} (one : 1 ≤ high) (n : Int) :
    1 ≤ clamp 1 high n ∧ clamp 1 high n ≤ high := by
  unfold clamp
  omega

theorem clamp_of_mem {low high n : Int} (mem : low ≤ n ∧ n ≤ high) : clamp low high n = n := by
  unfold clamp
  omega

/-- What is left over beside half of it. -/
theorem tdiv_two_mem {n : Int} (nonneg : 0 ≤ n) :
    0 ≤ n.tdiv 2 ∧ 0 ≤ n - 2 * n.tdiv 2 ∧ n - 2 * n.tdiv 2 ≤ 1 := by
  rw [Int.tdiv_eq_ediv_of_nonneg nonneg]
  omega

/-- Whatever size is asked for, the virtual screen is shown within the display. -/
theorem ScreenLayout.placed_of_eq {layout : ScreenLayout} {width height : Int}
    (wide : 1 ≤ layout.displayWidth) (high : 1 ≤ layout.displayHeight)
    (shown : layout.placement = Sizing.place (clamp 1 layout.displayWidth width)
      (clamp 1 layout.displayHeight height) layout.displayWidth layout.displayHeight) :
    layout.Placed := by
  have across := clamp_mem wide width
  have down := clamp_mem high height
  have left := tdiv_two_mem (Int.sub_nonneg.mpr across.2)
  have top := tdiv_two_mem (Int.sub_nonneg.mpr down.2)
  constructor <;> rw [shown] <;> dsimp only [Sizing.place]
  · exact left.1
  · split <;> omega
  · exact across.1
  · exact down.1
  · omega
  · split <;> omega

theorem Sizing.placed_layout {input : Sizing} {layout : ScreenLayout}
    (computed : input.layout = .ok layout) : layout.Placed := by
  obtain ⟨rest, -, computed⟩ := Checked.bind_eq_ok.mp computed
  obtain ⟨⟨width, height⟩, -, computed⟩ := Checked.bind_eq_ok.mp computed
  cases computed
  exact ScreenLayout.placed_of_eq (Int.le_max_right ..) (Int.le_max_right ..) rfl

theorem ScreenLayout.Laid.placed {layout : ScreenLayout} (laid : layout.Laid) : layout.Placed := by
  obtain ⟨settings, computed⟩ := laid
  obtain ⟨input, -, computed⟩ := Checked.bind_eq_ok.mp computed
  exact Sizing.placed_layout computed

/-- Every layout that threads come to is one of some settings, also before the canvas has it. -/
theorem Studio.Step.laid {studio studio' : Studio} (step : studio.Step studio')
    (laid : studio.canvas.layout.Laid ∧ studio.layout.Laid) :
    studio'.canvas.layout.Laid ∧ studio'.layout.Laid := by
  cases step with
  | @configure canvas canvas' holder layout frame =>
    have same : (Studio.mk canvas' holder).layout = (Studio.mk canvas holder).layout := by
      simp only [Studio.layout, layout]
    rw [same, layout]
    exact laid
  | fit computed => exact ⟨laid.1, _, computed⟩
  | publish => exact ⟨laid.2, laid.2⟩
  | _ => exact laid

theorem Studio.Leads.laid {studio studio' : Studio} (leads : studio.Leads studio')
    (laid : studio.canvas.layout.Laid ∧ studio.layout.Laid) :
    studio'.canvas.layout.Laid ∧ studio'.layout.Laid := by
  induction leads with
  | refl => exact laid
  | tail _ step ih => exact step.laid ih

theorem Canvas.Leads.laid {canvas canvas' : Canvas} (leads : canvas.Leads canvas')
    (laid : canvas.layout.Laid) : canvas'.layout.Laid :=
  (Studio.Leads.laid leads ⟨laid, laid⟩).1

theorem Canvas.laid_create {config : Config} {kind : DisplayKind} {width height : Int} {now : Nat}
    {canvas : Canvas} (created : create config kind width height now = .ok canvas) :
    canvas.layout.Laid := by
  obtain ⟨layout, computed, created⟩ := Checked.bind_eq_ok.mp created
  cases created
  exact ⟨_, computed⟩

namespace Frame

variable {frame frame' : Frame} {layout : ScreenLayout} {settings : Settings} {now : Nat}

theorem Matches.stretchable {filter : Bool} (matched : frame.Matches layout)
    (drawable : layout.Drawable filter) : frame.copy.Stretchable filter := by
  have width : (frame.copy.width : Int) = layout.width := congrArg Size.width matched.copy
  have height : (frame.copy.height : Int) = layout.height := congrArg Size.height matched.copy
  refine ⟨?_, fun filtered => ?_, fun filtered => ?_⟩
  · rw [Image.Small, width, height]
    exact drawable.screen
  · have := drawable.wide filtered
    omega
  · have := drawable.high filtered
    omega

/-- The display was given a new picture once. -/
structure Presents (frame frame' : Frame) : Prop where
  offscreen : frame'.offscreen = frame.offscreen
  copy : frame'.copy = frame.copy
  display : frame'.display = (frame.display.present frame'.screen).2
  presented : frame'.presented = match (frame.display.present frame'.screen).1 with
    | .ok () => frame.presented + 1
    | .error _ => frame.presented

theorem presents_compose {refusal : Option Error}
    (composed : frame.compose layout settings now = .ok (refusal, frame')) :
    frame.Presents frame' := by
  obtain ⟨picture, -, composed⟩ := Checked.bind_eq_ok.mp composed
  cases result : (frame.display.present picture).1 with
  | ok _ =>
    simp only [result] at composed
    cases composed
    exact ⟨rfl, rfl, rfl, by rw [result]⟩
  | error error =>
    simp only [result] at composed
    cases composed
    exact ⟨rfl, rfl, rfl, by rw [result]⟩

end Frame

end Handset
