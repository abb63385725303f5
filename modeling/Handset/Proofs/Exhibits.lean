import Handset.Proofs.PaintCycle
import Handset.Proofs.Pictures

/-! What the display of a canvas is given: the picture of what is shown, each time one is composed, and
nothing else. The display keeps the last that it took. -/

namespace Handset

namespace Display

/-- The last frame is kept as it is, whatever was kept before. -/
@[simp] theorem keep_eq (display : Display) (frame : Image) : display.keep frame = frame := by
  unfold keep
  split
  · split
    · rename_i last kept same
      exact Image.copyTo_eq_self ⟨same.1.symm, same.2.symm⟩
    · rfl
  · rfl

/-- Frames are handed to the display one after the other, whatever becomes of each. -/
def presentAll (display : Display) (frames : List Image) : Display :=
  frames.foldl (fun display frame => (display.present frame).2) display

/-- The frames that the display takes. -/
def taken (display : Display) : List Image → List Image
  | [] => []
  | frame :: frames =>
    match display.present frame with
    | (.ok (), display) => frame :: display.taken frames
    | (.error _, display) => display.taken frames

theorem presentAll_append (display : Display) (frames frames' : List Image) :
    display.presentAll (frames ++ frames') = (display.presentAll frames).presentAll frames' :=
  List.foldl_append ..

end Display

/-- The display was given a picture of what is shown, once. -/
structure Frame.Exhibits (frame frame' : Frame) (layout : ScreenLayout) (settings : Settings) :
    Prop where
  copy : frame'.copy = frame.copy
  shows : frame'.screen.Shows frame.copy layout settings.background settings.filter
  display : frame'.display = (frame.display.present frame'.screen).2

theorem Frame.exhibits_compose {frame frame' : Frame} {layout : ScreenLayout} {settings : Settings}
    {now : Nat} {refusal : Option Error}
    (composed : frame.compose layout settings now = .ok (refusal, frame'))
    (matched : frame.Matches layout) (placed : layout.Placed) :
    frame.Exhibits frame' layout settings where
  copy := (presents_compose composed).copy
  shows := shows_compose composed matched placed
  display := (presents_compose composed).display

namespace Studio

variable {studio studio' : Studio}

/-- A thread has the images of a canvas in hand to show them. -/
def Showing (studio : Studio) : Prop :=
  ∃ (config : Config) (kind : DisplayKind) (width height : Int) (now : Nat) (first : Canvas),
    Canvas.create config kind width height now = .ok first ∧ Leads ⟨first, none⟩ studio ∧
      studio.holder = some .showing

theorem Showing.matches (showing : studio.Showing) :
    studio.canvas.frame.Matches studio.canvas.layout := by
  obtain ⟨config, kind, width, height, now, first, created, leads, holder⟩ := showing
  have sound : studio.Sound := leads.sound (Canvas.matches_create created)
  rw [Sound, layout, holder] at sound
  exact sound

theorem Showing.laid (showing : studio.Showing) : studio.canvas.layout.Laid := by
  obtain ⟨config, kind, width, height, now, first, created, leads, holder⟩ := showing
  exact (leads.laid ⟨Canvas.laid_create created, Canvas.laid_create created⟩).1

theorem Showing.exhibits (showing : studio.Showing) {settings : Settings} {now : Nat}
    {refusal : Option Error} {frame : Frame}
    (composed : studio.canvas.frame.compose studio.canvas.layout settings now =
      .ok (refusal, frame)) :
    studio.canvas.frame.Exhibits frame studio.canvas.layout settings :=
  Frame.exhibits_compose composed showing.matches showing.laid.placed

/-- The frame is the picture of what threads have a canvas show at some time. -/
def Exhibited (first : Canvas) (frame : Image) : Prop :=
  ∃ (studio : Studio) (settings : Settings), Leads ⟨first, none⟩ studio ∧
    studio.holder = some .showing ∧
    frame.Shows studio.canvas.frame.copy studio.canvas.layout settings.background settings.filter

/-- A thread composes what is shown, and hands the frame to the display. -/
inductive Composes : Studio → Image → Studio → Prop
  | mk {canvas : Canvas} {settings : Settings} {now : Nat} {refusal : Option Error} {frame : Frame}
      (composed : canvas.frame.compose canvas.layout settings now = .ok (refusal, frame)) :
      Composes ⟨canvas, some .showing⟩ frame.screen ⟨{ canvas with frame }, some .showing⟩

/-- The frames that threads hand to the display on their way to a studio, the first one first. -/
inductive Hands (start : Studio) : List Image → Studio → Prop
  | refl : Hands start [] start
  | compose {frames : List Image} {frame : Image} {studio studio' : Studio}
      (hands : Hands start frames studio) (composes : studio.Composes frame studio') :
      Hands start (frames ++ [frame]) studio'
  | other {frames : List Image} {studio studio' : Studio} (hands : Hands start frames studio)
      (step : studio.Step studio') (other : ∀ frame, ¬ studio.Composes frame studio') :
      Hands start frames studio'

theorem Composes.step {frame : Image} (composes : studio.Composes frame studio') :
    studio.Step studio' := by
  obtain ⟨composed⟩ := composes
  exact .compose composed

theorem Hands.leads {start : Studio} {frames : List Image} (hands : Hands start frames studio) :
    start.Leads studio := by
  induction hands with
  | refl => exact .refl
  | compose _ composes ih => exact ih.tail composes.step
  | other _ step _ ih => exact ih.tail step

theorem Hands.exhibited {first : Canvas} {frames : List Image}
    (hands : Hands ⟨first, none⟩ frames studio) (matched : first.frame.Matches first.layout)
    (laid : first.layout.Laid) : ∀ frame ∈ frames, Exhibited first frame := by
  induction hands with
  | refl => exact nofun
  | other _ _ _ ih => exact ih
  | compose hands composes ih =>
    intro frame mem
    obtain earlier | last := List.mem_append.mp mem
    · exact ih frame earlier
    · rw [List.mem_singleton.mp last]
      have sound := hands.leads.sound matched
      have placed := (hands.leads.laid ⟨laid, laid⟩).1.placed
      have leads := hands.leads
      obtain ⟨composed⟩ := composes
      exact ⟨_, _, leads, rfl, Frame.shows_compose composed sound placed⟩

end Studio

namespace Canvas

variable {config : Config} {kind : DisplayKind} {width height : Int} {now : Nat} {first : Canvas}

end Canvas

namespace Stage

/-- The display was given the picture of what is shown now, once. -/
structure Exhibits (s s' : Session Stage) : Prop where
  layout : s'.stage.canvas.layout = s.stage.canvas.layout
  shows : s'.stage.canvas.frame.screen.Shows s'.stage.canvas.frame.copy s'.stage.canvas.layout
    s'.stage.canvas.settings.background s'.stage.canvas.settings.filter
  display : s'.stage.canvas.frame.display =
    (s.stage.canvas.frame.display.present s'.stage.canvas.frame.screen).2

/-- The picture of what a session shows, on a screen. -/
def pictured (screen : Image) (s : Session Stage) : Except Fault Image :=
  Frame.picture screen s.stage.canvas.frame.copy
    (Settings.solid s.stage.canvas.settings.background) s.stage.canvas.layout.placement
    s.stage.canvas.settings.filter

/-- What comes of a composition. The display was given the picture; or there is none, since 32 bits
cannot count the pixels, and it was given nothing. -/
inductive Composed (s : Session Stage) : Except Fault Unit → Session Stage → Prop
  | exhibits {s' : Session Stage}
      (picture : pictured s.stage.canvas.frame.screen s' = .ok s'.stage.canvas.frame.screen)
      (exhibits : Exhibits s s') : Composed s (.ok ()) s'
  | overflowed {fault : Fault} {s' : Session Stage}
      (picture : pictured s.stage.canvas.frame.screen s' = .error fault)
      (large : ¬ s.stage.canvas.layout.Drawable s'.stage.canvas.settings.filter)
      (layout : s'.stage.canvas.layout = s.stage.canvas.layout)
      (display : s'.stage.canvas.frame.display = s.stage.canvas.frame.display) :
      Composed s (.error fault) s'

/-- Nothing is given to the display by itself where the host composes on its own. -/
def ComposedInTurn (s : Session Stage) (result : Except Fault Unit) (s' : Session Stage) : Prop :=
  if s'.stage.canvas.settings.parallelRedraw = true then
    result = .ok () ∧ s'.stage.canvas.frame.display = s.stage.canvas.frame.display
  else Composed s result s'

variable {config : Config} {kind : DisplayKind} {width height : Int} {now : Nat} {first : Canvas}
  {s s' : Session Stage} {result : Except Fault Unit}

/-- Of what came before, the layout, the screen and the display have a part in it. -/
theorem ComposedInTurn.since {s₁ : Session Stage} (composed : ComposedInTurn s₁ result s')
    (layout : s₁.stage.canvas.layout = s.stage.canvas.layout)
    (screen : s₁.stage.canvas.frame.screen = s.stage.canvas.frame.screen)
    (display : s₁.stage.canvas.frame.display = s.stage.canvas.frame.display) :
    ComposedInTurn s result s' := by
  unfold ComposedInTurn at composed ⊢
  split
  · rename_i parallel
    rw [if_pos parallel] at composed
    exact ⟨composed.1, composed.2.trans display⟩
  · rename_i parallel
    rw [if_neg parallel] at composed
    cases composed with
    | exhibits picture exhibits =>
      rw [screen] at picture
      exact .exhibits picture
        ⟨exhibits.layout.trans layout, exhibits.shows, by rw [exhibits.display, display]⟩
    | overflowed picture large layout' display' =>
      rw [screen] at picture
      rw [layout] at large
      exact .overflowed picture large (layout'.trans layout) (display'.trans display)

end Stage

end Handset
