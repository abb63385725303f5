import Handset.Proofs.CanvasSessions
import Handset.Proofs.Composing
import Handset.Proofs.Sessions

/-! A paint cycle, from the first look at the canvas to the last. Whatever the application does in
its paint, of the images it changes only the one it draws in, and that one is shown when it is done
and not before. -/

namespace Handset

namespace Stage

/-- Of the images only the one has changed that the application draws in. -/
structure Drawn (s s' : Session Stage) : Prop where
  layout : s'.stage.canvas.layout = s.stage.canvas.layout
  frame : s'.stage.canvas.frame =
    { s.stage.canvas.frame with offscreen := s'.stage.canvas.frame.offscreen }
  size : s'.stage.canvas.frame.offscreen.size = s.stage.canvas.frame.offscreen.size

theorem Untouched.drawn {s s' : Session Stage} (untouched : Untouched s s') : Drawn s s' where
  layout := untouched.1
  frame := by rw [untouched.2]
  size := by rw [untouched.2]

theorem Drawn.refl (s : Session Stage) : Drawn s s :=
  ⟨rfl, rfl, rfl⟩

theorem Drawn.trans {s s₁ s' : Session Stage} (first : Drawn s s₁) (second : Drawn s₁ s') :
    Drawn s s' where
  layout := second.layout.trans first.layout
  frame := by rw [second.frame, first.frame]
  size := second.size.trans first.size

variable {α β : Type} {act : Act α} {next : α → Act β} {s : Session Stage}
  {runner : Runner Stage}

def DrawsAt (act : Act α) (s : Session Stage) : Prop :=
  Drawn s (act.run.run s).2

/-- Inside a paint the action does no more than draw. -/
def Draws (act : Act α) : Prop :=
  ∀ s : Session Stage, s.Plain → s.painting = true → DrawsAt act s

/-- What is a run of moves leaves a thread inside its paint. -/
theorem Mirrored.inside (mirrored : Mirrored act) (plain : s.Plain) (painting : s.painting = true) :
    (act.run.run s).2.Plain ∧ (act.run.run s).2.painting = true := by
  let painter : Painter := .inPlace 0 0
  have inside : Mirrors s
      (painter.put .inside { canvas := s.stage.canvas, queue := s.queue }) := by
    apply mirrors_put
    · rfl
    · rfl
    · exact Painter.locked_put_inside.trans painting.symm
    · exact plain
  obtain ⟨w, goes, mirrors⟩ := mirrored s _ inside
  refine ⟨mirrors.plain, ?_⟩
  rw [← mirrors.painting, goes.locked]
  exact Painter.locked_put_inside

theorem DrawsAt.bind (first : DrawsAt act s) (mirrored : Mirrored act) (plain : s.Plain)
    (painting : s.painting = true) (rest : ∀ a, Draws (next a)) : DrawsAt (act >>= next) s := by
  have inside := Mirrored.inside mirrored plain painting
  unfold DrawsAt at first ⊢
  rw [run_bind]
  cases ran : act.run.run s with
  | mk result s' =>
    rw [ran] at first inside
    cases result with
    | ok a => exact first.trans (rest a s' inside.1 inside.2)
    | error fault => exact first

theorem Draws.bind (first : Draws act) (mirrored : Mirrored act) (rest : ∀ a, Draws (next a)) :
    Draws (act >>= next) :=
  fun s plain painting => (first s plain painting).bind mirrored plain painting rest

theorem draws_of_untouched (untouched : ∀ s, Untouched s (act.run.run s).2) : Draws act :=
  fun s _ _ => (untouched s).drawn

theorem draws_pure (a : α) : Draws (pure a : Act α) :=
  draws_of_untouched fun _ => ⟨rfl, rfl⟩

theorem draws_throw (fault : Fault) : Draws (throw fault : Act α) :=
  draws_of_untouched fun _ => ⟨rfl, rfl⟩

theorem draws_note (entry : Note) : Draws (Act.note entry : Act Unit) :=
  draws_of_untouched fun _ => ⟨rfl, rfl⟩

/-- A runner whose plain steps are runs of moves, and do no more than draw inside a paint. -/
structure Paints (runner : Runner Stage) : Prop where
  calm : Calm runner
  draws (step : Step) (plain : step.plain = true) :
    Draws (liftM (runner.step step) : Act StepAnswer)

section Closure

variable (paints : Paints runner)

include paints

theorem draws_steps {steps : List Step} (plain : Step.allPlain steps = true) :
    Draws (steps.mapM fun step => (runner.step step : Act StepAnswer)) := by
  induction steps with
  | nil => exact draws_pure []
  | cons step steps ih =>
    have parts : step.plain = true ∧ Step.allPlain steps = true := by
      simpa [Step.allPlain] using plain
    rw [List.mapM_cons]
    apply (paints.draws step parts.1).bind (paints.calm step parts.1)
    intro answer
    apply (ih parts.2).bind (mirrored_steps paints.calm parts.2)
    intro answers
    exact draws_pure _

omit paints in
theorem draws_ending (ending : Ending) : Draws (match ending with
    | .done => return none
    | .fail failure => return some failure
    | .raise text => throw (.raised text) : Act (Option Failure)) := by
  cases ending with
  | done => exact draws_pure none
  | fail failure => exact draws_pure (some failure)
  | raise text => exact draws_throw _

theorem draws_runBody {body : Body} (plain : body.plain = true) :
    Draws (Act.runBody runner body) := by
  cases body with
  | mk steps ending =>
    cases steps with
    | none => exact draws_ending ending
    | some steps =>
      apply (draws_steps paints plain).bind (mirrored_steps paints.calm plain)
      intro answers
      apply (draws_note _).bind (mirrored_note _)
      intro _
      exact draws_ending ending

theorem draws_interpret {step : Step} (plain : step.plain = true) :
    Draws (Host.stage.interpret runner step) := by
  cases step with
  | process | drain | flush | dispatch => cases plain
  | post | remove | counts | inspect | addRule | setPaint =>
    exact draws_of_untouched fun _ => ⟨rfl, rfl⟩
  | close =>
    have closes : Obeys Untouched (do
        Act.close
        return .nothing : Act Answer) :=
      (obeys_close enduring_untouched).bind enduring_untouched fun _ =>
        obeys_pure enduring_untouched _
    exact draws_of_untouched closes
  | perform body =>
    apply (draws_runBody paints plain).bind (mirrored_runBody paints.calm plain)
    intro failure
    exact draws_pure _
  | ask request => exact fun s _ painting => (untouched_perform painting runner request).drawn

end Closure

/-- The steps of the engine, nested however deep. -/
theorem draws_step (depth : Nat) (step : Step) (plain : step.plain = true) :
    Draws (liftM (Host.stage.step depth step) : Act StepAnswer) := by
  induction depth generalizing step with
  | zero => exact draws_of_untouched fun _ => ⟨rfl, rfl⟩
  | succ depth ih =>
    intro s calm painting
    have paints : Paints ⟨Host.stage.step depth,
        Host.stage.hold ⟨Host.stage.step depth, fun _ => return⟩⟩ := ⟨Host.calm_step depth, ih⟩
    have drawn := draws_interpret paints plain { s with notes := #[] } calm painting
    exact ⟨drawn.layout, drawn.frame, drawn.size⟩

/-- What runs the callbacks of a step, nested however deep. -/
abbrev runnerAt (depth : Nat) : Runner Stage :=
  ⟨Host.stage.step depth, Host.stage.hold ⟨Host.stage.step depth, fun _ => return⟩⟩

theorem paints_runnerAt (depth : Nat) : Paints (runnerAt depth) :=
  ⟨Host.calm_step depth, draws_step depth⟩

/-- What becomes of a drawing that is done: it is composed at once, unless the host is to do so on its
own. A composition faults only where 32 bits cannot count the pixels. -/
inductive Completes (canvas : Canvas) (now : Nat) : Except Fault Unit → Frame → Prop
  | alone (parallel : canvas.settings.parallelRedraw = true) :
      Completes canvas now (.ok ()) canvas.frame.finish
  | composed {frame : Frame} (inTurn : canvas.settings.parallelRedraw = false)
      (presents : canvas.frame.finish.Presents frame) : Completes canvas now (.ok ()) frame
  | overflowed {fault : Fault} (inTurn : canvas.settings.parallelRedraw = false)
      (large : ¬ canvas.layout.Drawable canvas.settings.filter)
      (faulted : canvas.frame.finish.compose canvas.layout canvas.settings now = .error fault) :
      Completes canvas now (.error fault) canvas.frame.finish

/-- What a paint cycle ends in and makes of a session. The application's paint is run inside of it, as
far as it goes. -/
inductive Cycle (runner : Runner Stage) (s : Session Stage) :
    Except Fault Unit → Session Stage → Prop
  | hidden (hidden : s.stage.canvas.shown = false) : Cycle runner s (.ok ()) s
  | failed {failure : Failure} {drawn : Session Stage} (shown : s.stage.canvas.shown = true)
      (paint : (paintApp runner).run.run { s with painting := true } = (.ok (some failure), drawn))
      (draws : Drawn s drawn) :
      Cycle runner s (.ok ())
        { drawn with painting := false, logs := drawn.logs.push (.paintFailed failure) }
  | faulted {fault : Fault} {drawn : Session Stage} (shown : s.stage.canvas.shown = true)
      (paint : (paintApp runner).run.run { s with painting := true } = (.error fault, drawn))
      (draws : Drawn s drawn) :
      Cycle runner s (.ok ())
        { drawn with painting := false, logs := drawn.logs.push (.paintFaulted fault) }
  | finished {drawn : Session Stage} {frame : Frame} {result : Except Fault Unit}
      (logs : Array LogEntry) (shown : s.stage.canvas.shown = true)
      (paint : (paintApp runner).run.run { s with painting := true } = (.ok none, drawn))
      (draws : Drawn s drawn)
      (copied : frame.copy = frame.offscreen)
      (completes : Completes drawn.stage.canvas drawn.clock result frame) :
      Cycle runner s result { drawn with
        stage := { drawn.stage with canvas := { drawn.stage.canvas with frame } }
        painting := false
        logs }

/-- A thread is to begin a paint cycle in a session that threads may come to. -/
structure Ready (first : Canvas) (s : Session Stage) : Prop where
  leads : first.Leads s.stage.canvas
  plain : s.Plain
  outside : s.painting = false

theorem Drawn.matches {drawn : Session Stage} (draws : Drawn s drawn)
    (matched : s.stage.canvas.frame.Matches s.stage.canvas.layout) :
    drawn.stage.canvas.frame.Matches drawn.stage.canvas.layout := by
  rw [draws.layout]
  refine ⟨draws.size.trans matched.offscreen, ?_, ?_⟩
  · rw [draws.frame]
    exact matched.copy
  · rw [draws.frame]
    exact matched.screen

variable {first : Canvas} {config : Config} {kind : DisplayKind} {width height : Int} {now : Nat}
  {result : Except Fault Unit}

theorem obeys_runnerAt {R : Session Stage → Session Stage → Prop} (enduring : Enduring R)
    (follows : Follows R) (depth : Nat) : (runnerAt depth).Obeys R := by
  have stage := obeys_stage enduring follows
  have steps : Runner.Obeys R ⟨Host.stage.step depth, fun _ => return⟩ :=
    ⟨Host.obeys_step enduring stage depth, fun _ => obeys_pure enduring ()⟩
  exact ⟨Host.obeys_step enduring stage depth, Host.obeys_hold enduring stage steps⟩

/-- After a cycle there can be another. -/
theorem Ready.after {s' : Session Stage} {depth : Nat} (ready : Ready first s)
    (ran : (paintCycle (runnerAt depth)).run.run s = (result, s')) : Ready first s' := by
  let painter : Painter := .inPlace 0 0
  have begins : Mirrors s
      (painter.put .look { canvas := s.stage.canvas, queue := s.queue }) := by
    apply mirrors_put
    · rfl
    · rfl
    · exact (Painter.locked_inPlace (by simp)).trans ready.outside.symm
    · exact ready.plain
  obtain ⟨w', -, mirrors, turn, runs, -⟩ :=
    leads_paintCycle (paints_runnerAt depth).calm begins ready.outside
  have follows : Follows fun s s' : Session Stage => s.stage.canvas.Leads s'.stage.canvas :=
    fun _ _ _ leads => leads
  have steps := obeys_runnerAt enduring_leads follows depth
  have leads := obeys_paintCycle enduring_leads follows steps s
  unfold ObeysAt at leads
  rw [ran] at mirrors leads
  refine ⟨ready.leads.trans leads, mirrors.plain, ?_⟩
  rw [← mirrors.painting, Painter.locked_inPlace (by simp)]
  simp only [World.locked, turn, runs]
  rfl

theorem Ready.inTurn {event : Event Job} {queue : Queue Job} (ready : Ready first s)
    (next : s.queue.next? = some (event, queue)) : Ready first { s with queue } :=
  ⟨ready.leads, (plain_next ready.plain next).2, ready.outside⟩

theorem Ready.inPlace {queue : Queue Job} (ready : Ready first s)
    (flushed : s.queue.flush .paint s.painting s.thread = (.take, queue)) :
    Ready first { s with queue } := by
  obtain ⟨-, event, found⟩ := Queue.flush_take flushed
  obtain ⟨-, -, before, after, events, rest⟩ := Queue.flush_eq_take flushed found
  exact ⟨ready.leads, plain_eraseP ready.plain events (by rw [rest]), ready.outside⟩

/-- A pixel on the display, with a script for its paint. -/
def pixelShown (script : List PaintItem) : Session Stage where
  stage := {
    canvas := { pixelCanvas with shown := true }
    app := .scripted
    backBuffer := .blank 1 1 }
  script := script

end Stage

end Handset
