import Handset.Canvas
import Handset.Image.Pixels

/-! Sizes of a canvas: the layout takes the size of the display from the settings, and the screen
has the size of the display, whatever is composed on it. -/

namespace Handset

structure Size where
  width : Int
  height : Int
  deriving DecidableEq, Repr

/-- A display has at least one pixel. -/
def Size.positive (size : Size) : Size :=
  ⟨max size.width 1, max size.height 1⟩

/-- The size of the canvas, which the application is told. -/
def ScreenLayout.size (layout : ScreenLayout) : Size :=
  ⟨layout.width, layout.height⟩

def ScreenLayout.displaySize (layout : ScreenLayout) : Size :=
  ⟨layout.displayWidth, layout.displayHeight⟩

def Settings.displaySize (settings : Settings) : Size :=
  ⟨settings.displayWidth, settings.displayHeight⟩

def Image.size (image : Image) : Size :=
  ⟨image.width, image.height⟩

theorem Sizing.displaySize_layout {input : Sizing} {layout : ScreenLayout}
    (h : input.layout = .ok layout) :
    layout.displaySize = Size.positive ⟨input.displayWidth, input.displayHeight⟩ := by
  obtain ⟨room, -, h⟩ := Checked.bind_eq_ok.mp h
  obtain ⟨sides, -, h⟩ := Checked.bind_eq_ok.mp h
  cases h
  rfl

theorem Settings.displaySize_sizing {settings : Settings} {input : Sizing}
    (h : settings.sizing = .ok input) :
    Size.mk input.displayWidth input.displayHeight = settings.displaySize := by
  unfold Settings.sizing at h
  split at h <;> obtain ⟨reserved, -, h⟩ := Checked.bind_eq_ok.mp h <;> cases h <;> rfl

theorem Settings.displaySize_layout {settings : Settings} {layout : ScreenLayout}
    (h : settings.layout = .ok layout) : layout.displaySize = settings.displaySize.positive := by
  obtain ⟨input, sizing, h⟩ := Checked.bind_eq_ok.mp h
  rw [Sizing.displaySize_layout h, Settings.displaySize_sizing sizing]

namespace Image

@[simp] theorem size_setArea (image : Image) (area : Rect) (color : Int → Int → UInt32) :
    (image.setArea area color).size = image.size := by
  simp [size]

@[simp] theorem size_blank (width height : Int) :
    (blank width height).size = Size.positive ⟨width, height⟩ := by
  simp only [size, blank, filled, Size.positive]
  congr 1 <;> omega

end Image

namespace Draw

/-- A drawing changes pixels, and never the sides of its target. -/
def KeepsSize {α : Type} (drawing : Draw α) : Prop :=
  ∀ g : Graphics, (drawing.run.run g).2.target.size = g.target.size

theorem KeepsSize.bind {α β : Type} {drawing : Draw α} {next : α → Draw β}
    (first : drawing.KeepsSize) (rest : ∀ a, (next a).KeepsSize) :
    (drawing >>= next).KeepsSize := by
  intro g
  have hg := first g
  simp only [ExceptT.run_bind, StateT.run_bind]
  cases h : drawing.run.run g with
  | mk result g' =>
    rw [h] at hg
    cases result with
    | ok a => exact (rest a g').trans hg
    | error fault => exact hg

theorem KeepsSize.of_except {α : Type} (result : Except Fault α) :
    (liftM result : Draw α).KeepsSize := by
  intro g
  cases result <;> rfl

theorem keepsSize_pen : pen.KeepsSize :=
  fun _ => rfl

theorem keepsSize_clear (color : UInt32) : (clear color).KeepsSize :=
  fun _ => rfl

theorem keepsSize_get : (get : Draw Graphics).KeepsSize :=
  fun _ => rfl

theorem keepsSize_setPixel (x y : Int) (color : UInt32) : (setPixel x y color).KeepsSize := by
  refine keepsSize_get.bind fun g => ?_
  refine (KeepsSize.of_except _).bind fun place => ?_
  cases place with
  | some i => exact fun _ => rfl
  | none => exact fun _ => rfl

theorem keepsSize_forEach {drawing : Int → Draw Unit} (each : ∀ n, (drawing n).KeepsSize)
    (count : Nat) (start : Int) : (forEach drawing count start).KeepsSize := by
  induction count generalizing start with
  | zero => exact fun _ => rfl
  | succ count ih => exact (each start).bind fun _ => ih (start + 1)

theorem keepsSize_paintArea (area : Rect) (color : Int → Int → Except Fault UInt32) :
    (paintArea area color).KeepsSize := by
  refine keepsSize_forEach (fun y => keepsSize_forEach (fun x => ?_) _ _) _ _
  exact (KeepsSize.of_except _).bind fun c => keepsSize_setPixel x y c

theorem keepsSize_drawImageScaled (image : Image) (r : Rect) (filter : Bool) :
    (drawImageScaled image r filter).KeepsSize := by
  unfold drawImageScaled
  split
  · exact fun _ => rfl
  · refine keepsSize_pen.bind fun p => ?_
    refine (KeepsSize.of_except _).bind fun place => ?_
    exact (KeepsSize.of_except _).bind fun area => keepsSize_paintArea area _

end Draw

namespace Frame

theorem size_picture {screen image picture : Image} {background : UInt32} {place : Rect}
    {filter : Bool} (h : Frame.picture screen image background place filter = .ok picture) :
    picture.size = screen.size := by
  have keeps := ((Draw.keepsSize_clear background).bind fun _ =>
    Draw.keepsSize_drawImageScaled image place filter) (Graphics.on screen)
  simp only [Frame.picture] at h
  split at h
  · rename_i g drawn
    cases h
    rw [drawn] at keeps
    exact keeps
  · cases h

theorem size_compose {frame frame' : Frame} {layout : ScreenLayout} {settings : Settings}
    {now : Nat} {refusal : Option Error}
    (h : frame.compose layout settings now = .ok (refusal, frame')) :
    frame'.screen.size = frame.screen.size := by
  obtain ⟨screen, drawn, h⟩ := Checked.bind_eq_ok.mp h
  cases result : (frame.display.present screen).1 with
  | ok _ =>
    simp only [result] at h
    cases h
    exact size_picture drawn
  | error error =>
    simp only [result] at h
    cases h
    exact size_picture drawn

theorem size_resize (frame : Frame) (layout : ScreenLayout)
    (h : layout.displaySize.positive = layout.displaySize) :
    (frame.resize layout).screen.size = layout.displaySize := by
  have refit (frame : Frame) :
      (if fits frame.screen layout.displayWidth layout.displayHeight then frame
        else { frame with
          screen := .reallocate (some frame.screen) layout.displayWidth
            layout.displayHeight }).screen.size = layout.displaySize := by
    split
    · rename_i fit
      simp only [fits, Bool.and_eq_true, beq_iff_eq] at fit
      simp only [Image.size, ScreenLayout.displaySize, fit.1, fit.2]
    · rw [Image.reallocate_eq_blank, Image.size_blank]
      exact h
  exact refit _

end Frame

@[simp] theorem Size.positive_positive (size : Size) : size.positive.positive = size.positive := by
  simp [positive]

namespace Canvas

/-- The two canvases have the same sizes, asked for and in use. -/
structure Agrees (a b : Canvas) : Prop where
  display : b.settings.displaySize = a.settings.displaySize
  layout : b.layout = a.layout
  screen : b.frame.screen.size = a.frame.screen.size

theorem Agrees.refl (canvas : Canvas) : canvas.Agrees canvas :=
  ⟨rfl, rfl, rfl⟩

theorem Agrees.trans {a b c : Canvas} (hab : a.Agrees b) (hbc : b.Agrees c) : a.Agrees c where
  display := hbc.display.trans hab.display
  layout := hbc.layout.trans hab.layout
  screen := hbc.screen.trans hab.screen

theorem agrees_compose {canvas canvas' : Canvas} {now : Nat} {refusal : Option Error}
    (h : canvas.compose now = .ok (refusal, canvas')) : canvas.Agrees canvas' := by
  obtain ⟨⟨_, frame⟩, composed, h⟩ := Checked.bind_eq_ok.mp h
  cases h
  exact ⟨rfl, rfl, Frame.size_compose composed⟩

/-- The screen of a canvas has the size of the display that its layout is for. -/
structure Fitted (canvas : Canvas) : Prop where
  positive : canvas.layout.displaySize.positive = canvas.layout.displaySize
  screen : canvas.frame.screen.size = canvas.layout.displaySize

theorem Fitted.of_agrees {a b : Canvas} (h : a.Agrees b) (fitted : a.Fitted) : b.Fitted where
  positive := by rw [h.layout, fitted.positive]
  screen := by rw [h.screen, h.layout, fitted.screen]

theorem Fitted.of_layout {canvas : Canvas} {settings : Settings}
    (layout : settings.layout = .ok canvas.layout)
    (screen : canvas.layout.displaySize.positive = canvas.layout.displaySize →
      canvas.frame.screen.size = canvas.layout.displaySize) : canvas.Fitted := by
  have positive : canvas.layout.displaySize.positive = canvas.layout.displaySize := by
    rw [Settings.displaySize_layout layout, Size.positive_positive]
  exact ⟨positive, screen positive⟩

theorem fitted_create {config : Config} {kind : DisplayKind} {width height : Int} {now : Nat}
    {canvas : Canvas} (h : create config kind width height now = .ok canvas) :
    canvas.Fitted := by
  obtain ⟨layout, computed, h⟩ := Checked.bind_eq_ok.mp h
  cases h
  exact .of_layout computed fun positive => (Image.size_blank ..).trans positive

/-- What a new layout depends on and what it sets. -/
theorem updateSize_eq_ok {canvas canvas' : Canvas} {changed : Bool}
    (h : canvas.updateSize = .ok (changed, canvas')) :
    canvas'.settings = canvas.settings ∧ canvas.settings.layout = .ok canvas'.layout ∧
      (changed = false → canvas'.layout.size = canvas.layout.size) ∧ canvas'.Fitted := by
  obtain ⟨layout, computed, h⟩ := Checked.bind_eq_ok.mp h
  cases h
  refine ⟨rfl, computed, fun same => ?_, .of_layout computed (Frame.size_resize _ _)⟩
  simp only [Bool.or_eq_false_iff, bne_eq_false_iff_eq] at same
  simp only [ScreenLayout.size, same.1, same.2]

end Canvas

end Handset
