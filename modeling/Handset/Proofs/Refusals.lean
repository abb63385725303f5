import Handset.Proofs.ContainedCanvas

/-! Frames that a display refuses. Whatever it refuses of them, the same frames are handed to it, and a
session goes on in the same way. -/

namespace Handset

namespace Display

/-- The display with a mind of its own about the frames of some numbers: it accepts those that it is
told to. -/
def deciding (display : Display) (accepts : Nat → Bool) (count : Nat) : Display :=
  let numbers := List.range' (display.attempts + 1) count
  { display with kind := .scheduled (numbers.filter fun number => !accepts number) }

theorem taken_scheduled {display : Display} {refused : List Nat}
    (scheduled : display.kind = .scheduled refused) (frames : List Image) :
    display.taken frames = ((frames.zipIdx (display.attempts + 1)).filter
      fun entry => !refused.contains entry.2).map (·.1) := by
  induction frames generalizing display with
  | nil => rfl
  | cons frame frames ih =>
    rw [List.zipIdx_cons, List.filter_cons, taken]
    cases refuses : refused.contains (display.attempts + 1) with
    | true =>
      have refusal : ∃ error, display.refusal? = some error := by
        simp only [refusal?, scheduled, refuses, if_true]
        exact ⟨_, rfl⟩
      obtain ⟨error, refusal⟩ := refusal
      simp only [present, refusal]
      exact ih scheduled
    | false =>
      have accepts : display.refusal? = none := by
        simp only [refusal?, scheduled, refuses, Bool.false_eq_true, if_false]
      simp only [present, accepts]
      exact congrArg _ (ih scheduled)

/-- Any choice of frames is one that some display makes. -/
theorem taken_deciding (display : Display) (accepts : Nat → Bool) (frames : List Image) :
    (display.deciding accepts frames.length).taken frames =
      ((frames.zipIdx (display.attempts + 1)).filter fun entry => accepts entry.2).map (·.1) := by
  rw [taken_scheduled rfl]
  congr 1
  apply List.filter_congr
  intro entry mem
  obtain ⟨after, before, -⟩ := List.mem_zipIdx mem
  have numbered : entry.2 ∈ List.range' (display.attempts + 1) frames.length := by
    rw [List.mem_range'_1]
    exact ⟨after, before⟩
  cases accepted : accepts entry.2 <;> simp [List.contains_eq_mem, numbered, accepted]

end Display

namespace Studio

variable {studio studio' : Studio}

/-- The same studio with something else behind the stage. -/
def behind (studio : Studio) (b : Backstage) : Studio :=
  { studio with canvas := b.canvas studio.canvas }

/-- Whatever the display takes, a thread can do the same, and hands it the same frames. -/
theorem Step.behind (step : studio.Step studio') :
    ∃ frames, ∀ b : Backstage, ∃ b', b.Hands frames b' ∧ (studio.behind b).Step (studio'.behind b') := by
  cases step with
  | configure layout frame =>
    refine ⟨[], fun b => ⟨b, .refl b, .configure layout ?_⟩⟩
    exact congrArg b.frame frame
  | paint => exact ⟨[], fun b => ⟨b, .refl b, .paint⟩⟩
  | draw pen drawing => exact ⟨[], fun b => ⟨b, .refl b, .draw pen drawing⟩⟩
  | fail => exact ⟨[], fun b => ⟨b, .refl b, .fail⟩⟩
  | finish => exact ⟨[], fun b => ⟨b, .refl b, .finish⟩⟩
  | take => exact ⟨[], fun b => ⟨b, .refl b, .take⟩⟩
  | submit image => exact ⟨[], fun b => ⟨b, .refl b, .submit image⟩⟩
  | @compose canvas settings now refusal frame composed =>
    let own : Backstage := ⟨canvas.frame.display, canvas.frame.presented, #[], #[], none⟩
    have composed' : (own.frame canvas.frame).compose canvas.layout settings now =
      .ok (refusal, frame) := composed
    rw [Frame.compose_frame] at composed'
    cases pictured : Frame.picture canvas.frame.screen canvas.frame.copy
        (Settings.solid settings.background) canvas.layout.placement settings.filter with
    | error fault => simp [pictured, Except.map] at composed'
    | ok screen =>
      rw [pictured] at composed'
      cases composed'
      refine ⟨[screen], fun b => ⟨b.give screen, b.hands_give screen, ?_⟩⟩
      have composes := Frame.compose_frame b canvas.frame canvas.layout settings now
      rw [pictured] at composes
      exact .compose composes
  | leave => exact ⟨[], fun b => ⟨b, .refl b, .leave⟩⟩
  | @fit canvas settings layout computed =>
    refine ⟨[], fun b => ⟨b, .refl b, ?_⟩⟩
    have resized : (b.canvas canvas).frame.resize layout = b.frame (canvas.frame.resize layout) :=
      Frame.resize_frame b canvas.frame layout
    have fits : Step ⟨b.canvas canvas, none⟩
        ⟨{ b.canvas canvas with frame := (b.canvas canvas).frame.resize layout },
          some (.fitting layout)⟩ := .fit computed
    rw [resized] at fits
    exact fits
  | fault computed => exact ⟨[], fun b => ⟨b, .refl b, .fault computed⟩⟩
  | publish => exact ⟨[], fun b => ⟨b, .refl b, .publish⟩⟩

theorem Leads.behind (leads : studio.Leads studio') :
    ∃ frames, ∀ b : Backstage, ∃ b', b.Hands frames b' ∧
      (studio.behind b).Leads (studio'.behind b') := by
  induction leads with
  | refl => exact ⟨[], fun b => ⟨b, .refl b, .refl⟩⟩
  | tail _ step ih =>
    obtain ⟨frames, early⟩ := ih
    obtain ⟨frames', late⟩ := step.behind
    refine ⟨frames ++ frames', fun b => ?_⟩
    obtain ⟨b₁, hands, leads⟩ := early b
    obtain ⟨b', hands', step⟩ := late b₁
    exact ⟨b', hands.trans hands', leads.tail step⟩

end Studio

namespace Stage

/-- What is behind the stage of a session. -/
def behind (s : Session Stage) : Backstage where
  display := s.stage.canvas.frame.display
  presented := s.stage.canvas.frame.presented
  notes := s.notes
  logs := s.logs
  answers := s.dispatch.bind (·.answers)

theorem cover_behind (s : Session Stage) : (behind s).cover s = s := by
  let keep (dispatch : Dispatch) : Dispatch :=
    { dispatch with answers := s.dispatch.bind (·.answers) }
  have kept : s.dispatch.map keep = s.dispatch := by
    simp only [keep]
    cases s.dispatch <;> rfl
  have covered : (behind s).cover s = { s with dispatch := s.dispatch.map keep } := rfl
  rw [covered, kept]

/-- The display is handed a frame. It takes the frame, which is counted, or there is a warning. -/
inductive Presents (frame : Image) (s s' : Session Stage) : Prop
  | taken
      (takes : (behind s).display.present frame = (.ok (), (behind s').display))
      (counted : (behind s').presented = (behind s).presented + 1) (logs : s'.logs = s.logs)
  | refused {error : Error}
      (refuses : (behind s).display.present frame = (.error error, (behind s').display))
      (uncounted : (behind s').presented = (behind s).presented)
      (logs : s'.logs = s.logs.push (.presentFailed (behind s').display.name error))

theorem presents_give (s s' : Session Stage) (frame : Image) :
    Presents frame s (((behind s).give frame).cover s') := by
  let display := ((behind s).display.present frame).2
  cases refusal : (behind s).display.refusal? with
  | none =>
    have takes : (behind s).display.present frame = (.ok (), display) := by
      simp only [display, Display.present, refusal]
    have gives : (behind s).give frame =
        { behind s with display, presented := (behind s).presented + 1 } := by
      simp only [Backstage.give, refusal, display]
    rw [gives]
    exact .taken takes rfl rfl
  | some error =>
    have refuses : (behind s).display.present frame = (.error error, display) := by
      simp only [display, Display.present, refusal]
    have gives : (behind s).give frame = { behind s with
        display, logs := (behind s).logs.push (.presentFailed display.name error) } := by
      simp only [Backstage.give, refusal, display]
    rw [gives]
    exact .refused refuses rfl rfl

/-- A composition that has no picture leaves everything as it was. -/
theorem presents_composeFrame (s : Session Stage) :
    (∃ fault, composeFrame.run.run s = (.error fault, s)) ∨
      ∃ s', composeFrame.run.run s = (.ok (), s') ∧ Presents s'.stage.canvas.frame.screen s s' := by
  have ran := run_composeFrame (behind s) s
  rw [cover_behind] at ran
  cases pictured : s.stage.canvas.picture with
  | error fault =>
    rw [pictured] at ran
    exact .inl ⟨fault, ran⟩
  | ok screen =>
    rw [pictured] at ran
    exact .inr ⟨_, ran, presents_give s _ screen⟩

/-- The session on another display. -/
def showOn (s : Session Stage) (display : Display) : Session Stage :=
  Backstage.cover { behind s with display } s

/-- On the display the steps hand over the frames. But for the report of those that were refused, the
answers and the session are the given ones; where there is no dispatch each is reported once. -/
def PlaysOut (solo : Bool) (s : Session Stage) (depth : Nat) (steps : List Step)
    (frames : List Image) (answers : List StepAnswer) (s' : Session Stage) (talk : Talk)
    (display : Display) : Prop :=
  ∃ (answers' : List StepAnswer) (b' : Backstage),
    (steps.mapM (Host.stage.step depth)).run (showOn s display) = (answers', b'.cover s') ∧
    b'.display = display.presentAll frames ∧
    b'.presented = s.stage.canvas.frame.presented + (display.taken frames).length ∧
    StepAnswer.allHushed answers' = answers ∧ b'.hushed = talk ∧
    (solo = true → StepAnswer.allRefusals answers' + b'.refusals =
      (behind s).refusals + display.refused frames)

/-- Frames that are refused have no consequences. Whatever a display accepts of them, a session whose
scripts do not ask for it hands it the same frames, calls the application in the same way, and leaves
all images, the layout and the queue the same. The number of frames presented is that of the frames
it accepted, and there is one line in the log for each of the others. It may accept just any of them.
So do threads that come to a canvas in any order. Whenever a session composes, the frame is counted
or there is one line more in the log. -/
theorem refusals_contained {solo : Bool} {s : Session Stage} {steps : List Step}
    (blind : s.Blind solo) (blind' : Step.allBlind solo steps = true) (depth : Nat) :
    (∃ frames answers s' talk, ∀ display,
      PlaysOut solo s depth steps frames answers s' talk display) ∧
    (∀ (display : Display) (accepts : Nat → Bool) (frames : List Image),
      (display.deciding accepts frames.length).taken frames =
        ((frames.zipIdx (display.attempts + 1)).filter fun entry => accepts entry.2).map (·.1)) ∧
    (∀ studio studio' : Studio, studio.Leads studio' → ∃ frames, ∀ b : Backstage, ∃ b',
      b.Hands frames b' ∧ (studio.behind b).Leads (studio'.behind b')) ∧
    ∀ s : Session Stage, (∃ fault, composeFrame.run.run s = (.error fault, s)) ∨
      ∃ s', composeFrame.run.run s = (.ok (), s') ∧
        Presents s'.stage.canvas.frame.screen s s' := by
  refine ⟨?_, Display.taken_deciding, fun studio studio' leads => leads.behind,
    presents_composeFrame⟩
  obtain ⟨frames, answers, s', talk, -, holds⟩ :=
    contains_session contains_stage depth blind' s (behind s).hushed blind
  refine ⟨frames, answers, s', talk, fun display => ?_⟩
  obtain ⟨answers', b', ran, same, talks, hands, reports⟩ := holds { behind s with display } rfl
  exact ⟨answers', b', ran, hands.display, hands.presented, same, talks, reports⟩

/-- A pixel is composed, and then painted, on a display that refuses the first of the frames. -/
theorem refusals_contained_pixelShown :
    let s := pixelShown []
    let steps : List Step := [.ask .compose, .post .paint, .process]
    s.Blind true ∧ Step.allBlind true steps = true ∧
    ∃ frames answers s' talk, PlaysOut true s 2 steps frames answers s' talk
      { kind := .scheduled [1] } := by
  intro s steps
  have blind : s.Blind true := ⟨nofun, nofun, rfl, nofun⟩
  have blind' : Step.allBlind true steps = true := rfl
  obtain ⟨⟨frames, answers, s', talk, plays⟩, -⟩ := refusals_contained blind blind' 2
  exact ⟨blind, blind', frames, answers, s', talk, plays _⟩

end Stage

end Handset
