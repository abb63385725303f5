import Handset.Proofs.Buffers

/-! The images of a canvas among threads. A thread takes them in hand to have them painted, to
compose them, or to fit them to a new layout, and no other has them until it lets go. -/

namespace Handset

/-- What the thread is about that has the images in hand: the application paints, or a drawing is
shown, or the images are already those of a layout that the canvas does not have yet. -/
inductive Holder
  | painting
  | showing
  | fitting (layout : ScreenLayout)

structure Studio where
  canvas : Canvas
  holder : Option Holder := none

namespace Studio

/-- The layout that the images are for. -/
def layout (studio : Studio) : ScreenLayout :=
  match studio.holder with
  | some (.fitting layout) => layout
  | _ => studio.canvas.layout

/-- What a thread does at one time. It may have read the settings some time before. -/
inductive Step : Studio → Studio → Prop
  /-- Something changes that is neither an image nor the layout, whoever has the images in hand. -/
  | configure {canvas canvas' : Canvas} {holder : Option Holder}
      (layout : canvas'.layout = canvas.layout) (frame : canvas'.frame = canvas.frame) :
      Step ⟨canvas, holder⟩ ⟨canvas', holder⟩
  | paint {canvas : Canvas} : Step ⟨canvas, none⟩ ⟨canvas, some .painting⟩
  | draw {canvas : Canvas} (pen : Pen) (drawing : Drawing) :
      Step ⟨canvas, some .painting⟩
        ⟨{ canvas with frame := canvas.frame.draw pen drawing }, some .painting⟩
  /-- The application's paint has failed or faulted. -/
  | fail {canvas : Canvas} : Step ⟨canvas, some .painting⟩ ⟨canvas, none⟩
  | finish {canvas : Canvas} :
      Step ⟨canvas, some .painting⟩ ⟨{ canvas with frame := canvas.frame.finish }, some .showing⟩
  | take {canvas : Canvas} : Step ⟨canvas, none⟩ ⟨canvas, some .showing⟩
  | submit {canvas : Canvas} (image : Image) :
      Step ⟨canvas, some .showing⟩
        ⟨{ canvas with frame := canvas.frame.submit image }, some .showing⟩
  | compose {canvas : Canvas} {settings : Settings} {now : Nat} {refusal : Option Error}
      {frame : Frame}
      (composed : canvas.frame.compose canvas.layout settings now = .ok (refusal, frame)) :
      Step ⟨canvas, some .showing⟩ ⟨{ canvas with frame }, some .showing⟩
  /-- What was to be shown is, or could not be. -/
  | leave {canvas : Canvas} : Step ⟨canvas, some .showing⟩ ⟨canvas, none⟩
  | fit {canvas : Canvas} {settings : Settings} {layout : ScreenLayout}
      (computed : settings.layout = .ok layout) :
      Step ⟨canvas, none⟩
        ⟨{ canvas with frame := canvas.frame.resize layout }, some (.fitting layout)⟩
  /-- There is no layout for the settings. -/
  | fault {canvas : Canvas} {settings : Settings} {fault : Fault}
      (computed : settings.layout = .error fault) : Step ⟨canvas, none⟩ ⟨canvas, none⟩
  | publish {canvas : Canvas} {layout : ScreenLayout} :
      Step ⟨canvas, some (.fitting layout)⟩ ⟨{ canvas with layout }, none⟩

variable {studio studio' : Studio}

/-- The images match the layout that they are for. -/
abbrev Sound (studio : Studio) : Prop :=
  studio.canvas.frame.Matches studio.layout

theorem Step.sound (step : studio.Step studio') (sound : studio.Sound) : studio'.Sound := by
  cases step with
  | @configure canvas canvas' holder layout frame =>
    have same : (Studio.mk canvas' holder).layout = (Studio.mk canvas holder).layout := by
      simp only [Studio.layout, layout]
    rw [Sound, same, frame]
    exact sound
  | paint | fail | take | leave | fault => exact sound
  | draw pen drawing => exact sound.drawn pen drawing
  | finish => exact sound.finished
  | submit image => exact sound.submitted image
  | compose composed => exact sound.composed composed
  | fit computed => exact sound.resized (Settings.positive_layout computed)
  | publish => exact sound

/-- No thread gives the canvas another layout while the application paints. -/
theorem Step.layout_eq (step : studio.Step studio') (painting : studio.holder = some .painting) :
    studio'.canvas.layout = studio.canvas.layout := by
  cases step with
  | configure layout frame => exact layout
  | publish => cases painting
  | _ => rfl

/-- What threads make of a studio, one step after the other. -/
abbrev Leads : Studio → Studio → Prop :=
  Relation.ReflTransGen Step

theorem Leads.sound (leads : studio.Leads studio') (sound : studio.Sound) : studio'.Sound := by
  induction leads with
  | refl => exact sound
  | tail _ step ih => exact step.sound ih

/-- The same, as long as one paint goes on. -/
abbrev Paints : Studio → Studio → Prop :=
  Relation.ReflTransGen fun studio studio' =>
    studio.Step studio' ∧ studio'.holder = some .painting

theorem Paints.leads (paints : studio.Paints studio') : studio.Leads studio' :=
  Relation.ReflTransGen.mono (fun _ _ => And.left) _ _ paints

theorem Paints.layout_eq (paints : studio.Paints studio')
    (painting : studio.holder = some .painting) :
    studio'.canvas.layout = studio.canvas.layout ∧ studio'.holder = some .painting := by
  induction paints with
  | refl => exact ⟨rfl, painting⟩
  | tail _ step ih => exact ⟨(step.1.layout_eq ih.2).trans ih.1, step.2⟩

theorem Step.frame_eq (step : studio.Step studio') (painting : studio.holder = some .painting)
    (painting' : studio'.holder = some .painting) :
    studio'.canvas.frame =
      { studio.canvas.frame with offscreen := studio'.canvas.frame.offscreen } := by
  cases step with
  | configure layout frame => rw [frame]
  | draw pen drawing => rfl
  | finish | fail => cases painting'
  | _ => cases painting

/-- Of the images only the one changes that the application draws in. -/
theorem Paints.frame_eq (paints : studio.Paints studio')
    (painting : studio.holder = some .painting) :
    studio'.canvas.frame =
      { studio.canvas.frame with offscreen := studio'.canvas.frame.offscreen } := by
  induction paints with
  | refl => rfl
  | tail paints step ih =>
    rw [step.1.frame_eq (Paints.layout_eq paints painting).2 step.2, ih]

/-- The image that the application draws in has the size of the canvas, which is the same from the
beginning of the paint to its end. -/
theorem Paints.size_eq (paints : studio.Paints studio')
    (painting : studio.holder = some .painting) (sound : studio.Sound) :
    studio'.canvas.layout.size = studio.canvas.layout.size ∧
      studio'.canvas.frame.offscreen.size = studio'.canvas.layout.size := by
  obtain ⟨layout, painting'⟩ := paints.layout_eq painting
  have matches' := (paints.leads.sound sound).offscreen
  rw [Studio.layout, painting'] at matches'
  exact ⟨congrArg ScreenLayout.size layout, matches'⟩

end Studio

namespace Canvas

theorem matches_create {config : Config} {kind : DisplayKind} {width height : Int} {now : Nat}
    {canvas : Canvas} (created : create config kind width height now = .ok canvas) :
    canvas.frame.Matches canvas.layout := by
  obtain ⟨layout, computed, created⟩ := Checked.bind_eq_ok.mp created
  cases created
  exact Frame.matches_ofLayout (Settings.positive_layout computed) _ _

/-- No thread has the images in hand, neither before nor after. -/
def Leads (canvas canvas' : Canvas) : Prop :=
  Studio.Leads ⟨canvas, none⟩ ⟨canvas', none⟩

variable {canvas canvas' canvas'' : Canvas}

theorem Leads.refl (canvas : Canvas) : canvas.Leads canvas :=
  Relation.ReflTransGen.refl

theorem Leads.trans (first : canvas.Leads canvas') (second : canvas'.Leads canvas'') :
    canvas.Leads canvas'' :=
  Relation.ReflTransGen.trans first second

theorem Leads.matches (leads : canvas.Leads canvas')
    (sound : canvas.frame.Matches canvas.layout) : canvas'.frame.Matches canvas'.layout :=
  Studio.Leads.sound leads sound

theorem leads_configure (layout : canvas'.layout = canvas.layout)
    (frame : canvas'.frame = canvas.frame) : canvas.Leads canvas' :=
  .single (.configure layout frame)

/-- A drawing by itself is a paint that comes to nothing more. -/
theorem leads_draw (canvas : Canvas) (pen : Pen) (drawing : Drawing) :
    canvas.Leads { canvas with frame := canvas.frame.draw pen drawing } :=
  ((Relation.ReflTransGen.single .paint).tail (.draw pen drawing)).tail .fail

theorem leads_finish (canvas : Canvas) :
    canvas.Leads { canvas with frame := canvas.frame.finish } :=
  ((Relation.ReflTransGen.single .paint).tail .finish).tail .leave

theorem leads_submit (canvas : Canvas) (image : Image) :
    canvas.Leads { canvas with frame := canvas.frame.submit image } :=
  ((Relation.ReflTransGen.single .take).tail (.submit image)).tail .leave

theorem leads_compose {now : Nat} {refusal : Option Error}
    (shown : canvas.compose now = .ok (refusal, canvas')) : canvas.Leads canvas' := by
  obtain ⟨⟨refused, frame⟩, composed, shown⟩ := Checked.bind_eq_ok.mp shown
  cases shown
  exact ((Relation.ReflTransGen.single .take).tail (.compose composed)).tail .leave

theorem leads_updateSize {changed : Bool} (updated : canvas.updateSize = .ok (changed, canvas')) :
    canvas.Leads canvas' := by
  obtain ⟨layout, computed, updated⟩ := Checked.bind_eq_ok.mp updated
  cases updated
  exact (Relation.ReflTransGen.single (.fit computed)).tail .publish

end Canvas

end Handset
