import Handset.Proofs.ContainedSessions

/-! What a canvas does contains refusals: the display gets its frames in one place, and nothing but the
log and the number of frames that it took depends on what it does with them. -/

namespace Handset

theorem Frame.resize_frame (b : Backstage) (frame : Frame) (layout : ScreenLayout) :
    (b.frame frame).resize layout = b.frame (frame.resize layout) := by
  by_cases offscreen : fits frame.offscreen layout.width layout.height = true
  · by_cases screen : fits frame.screen layout.displayWidth layout.displayHeight = true
    · simp [resize, Backstage.frame, offscreen, screen]
    · simp [resize, Backstage.frame, offscreen, screen]
  · by_cases screen : fits frame.screen layout.displayWidth layout.displayHeight = true
    · simp [resize, Backstage.frame, offscreen, screen]
    · simp [resize, Backstage.frame, offscreen, screen]

theorem Canvas.updateSize_canvas (b : Backstage) (canvas : Canvas) :
    (b.canvas canvas).updateSize =
      canvas.updateSize.map fun updated => (updated.1, b.canvas updated.2) := by
  have settings : (b.canvas canvas).settings = canvas.settings := rfl
  have resized (layout : ScreenLayout) :
      (b.canvas canvas).frame.resize layout = b.frame (canvas.frame.resize layout) :=
    Frame.resize_frame b canvas.frame layout
  simp only [updateSize, settings, resized]
  cases canvas.settings.layout with
  | error fault => rfl
  | ok layout => rfl

namespace Backstage

/-- The display is given a frame. If it takes the frame it is counted, and if not that is logged. -/
def give (b : Backstage) (frame : Image) : Backstage :=
  let display := (b.display.present frame).2
  match b.display.refusal? with
  | none => { b with display, presented := b.presented + 1 }
  | some error => { b with display, logs := b.logs.push (.presentFailed display.name error) }

theorem hushed_give (b : Backstage) (frame : Image) : (b.give frame).hushed = b.hushed := by
  unfold give
  cases b.display.refusal? with
  | none => rfl
  | some error => simp [hushed, LogEntry.refuses]

theorem hands_give (b : Backstage) (frame : Image) : b.Hands [frame] (b.give frame) := by
  unfold give
  cases refusal : b.display.refusal? with
  | none =>
    refine ⟨rfl, ?_⟩
    simp [Display.taken, Display.present, refusal]
  | some error =>
    refine ⟨rfl, ?_⟩
    simp [Display.taken, Display.present, refusal]

theorem refusals_give (b : Backstage) (frame : Image) :
    (b.give frame).refusals = b.refusals + b.display.refused [frame] := by
  unfold give
  cases refusal : b.display.refusal? with
  | none => simp [refusals, Display.refused, Display.taken, Display.present, refusal]
  | some error =>
    simp [refusals, Display.refused, Display.taken, Display.present, refusal, LogEntry.refuses]
    omega

end Backstage

/-- A frame was composed, whatever became of it. -/
def Frame.composed (frame : Frame) (screen : Image) (now : Nat) : Frame :=
  { frame with screen, fps := frame.fps.map (·.increment now) }

theorem Frame.compose_frame (b : Backstage) (frame : Frame) (layout : ScreenLayout)
    (settings : Settings) (now : Nat) :
    (b.frame frame).compose layout settings now =
      (picture frame.screen frame.copy (Settings.solid settings.background) layout.placement
        settings.filter).map fun screen =>
          (b.display.refusal?, (b.give screen).frame (frame.composed screen now)) := by
  simp only [compose, Backstage.frame]
  cases picture frame.screen frame.copy (Settings.solid settings.background) layout.placement
      settings.filter with
  | error fault => rfl
  | ok screen =>
    unfold Backstage.give
    cases refusal : b.display.refusal? with
    | none =>
      simp [Display.present, refusal, Except.map, bind, Except.bind, pure, Except.pure, composed]
    | some error =>
      simp [Display.present, refusal, Except.map, bind, Except.bind, pure, Except.pure, composed]

namespace Canvas

/-- The frame that is composed of what is shown. -/
def picture (canvas : Canvas) : Except Fault Image :=
  Frame.picture canvas.frame.screen canvas.frame.copy (Settings.solid canvas.settings.background)
    canvas.layout.placement canvas.settings.filter

def composed (canvas : Canvas) (screen : Image) (now : Nat) : Canvas :=
  { canvas with frame := canvas.frame.composed screen now }

theorem compose_canvas (b : Backstage) (canvas : Canvas) (now : Nat) :
    (b.canvas canvas).compose now = canvas.picture.map fun screen =>
      (b.display.refusal?, (b.give screen).canvas (canvas.composed screen now)) := by
  have composes : (b.canvas canvas).frame.compose (b.canvas canvas).layout
      (b.canvas canvas).settings now = canvas.picture.map _ :=
    Frame.compose_frame b canvas.frame canvas.layout canvas.settings now
  simp only [compose, composes]
  cases canvas.picture with
  | error fault => rfl
  | ok screen => rfl

end Canvas

namespace Stage

variable {solo : Bool} {α β : Type} {made : View α} {s : Session Stage} {talk : Talk}
  {runner : Runner Stage}

/-- The rest depends on the canvas, but not on what is behind the stage. -/
theorem containsAt_theCanvas {next : Canvas → Act α}
    (same : ∀ b : Backstage, next (b.canvas s.stage.canvas) = next s.stage.canvas)
    (contains : ContainsAt solo made (next s.stage.canvas) s talk) :
    ContainsAt solo made (theCanvas >>= next) s talk :=
  containsAt_get same contains

/-- A canvas is set that has what is behind the stage as it was. -/
theorem containsAt_setCanvas {f : Canvas → Canvas} {next : Canvas → Act α}
    (covers : ∀ b : Backstage, f (b.canvas s.stage.canvas) = b.canvas (f s.stage.canvas))
    (same : ∀ b : Backstage, next (b.canvas s.stage.canvas) = next s.stage.canvas)
    (contains : ContainsAt solo made (next s.stage.canvas)
      { s with stage := { s.stage with canvas := f s.stage.canvas } } talk) :
    ContainsAt solo made (theCanvas >>= fun canvas => setCanvas (f canvas) >>= fun _ => next canvas)
      s talk := by
  refine .of_run (fun _ b _ => ?_) contains
  have covered : (b.cover s).stage.canvas = b.canvas s.stage.canvas := rfl
  simp only [run_bind, run_theCanvas, run_setCanvas, covered, covers, same]
  rfl

theorem contains_modifyCanvas {f : Canvas → Canvas}
    (covers : ∀ (b : Backstage) canvas, f (b.canvas canvas) = b.canvas (f canvas)) :
    Contains solo .plain (modifyCanvas f) := by
  have modifies : Contains solo .plain (modify fun s => { s with
      stage := { s.stage with canvas := f s.stage.canvas } } : Act Unit) := by
    apply contains_modify
    · intro b s
      simp only [Backstage.cover, covers]
    · exact fun _ blind => blind
  exact modifies

theorem contains_throttle : Contains solo .plain throttle :=
  contains_modify (fun _ _ => rfl) fun _ blind => blind

theorem contains_setBackBuffer (image : Image) : Contains solo .plain (setBackBuffer image) :=
  contains_modify (fun _ _ => rfl) fun _ blind => blind

theorem contains_tellOverlay (overlay : Overlay) (event : OverlayCall) :
    Contains solo .plain (tellOverlay overlay event) :=
  contains_forM fun _ _ => contains_note rfl

theorem contains_call (runs : Contains.Runs solo runner) (callback : Callback) {entry : Note}
    (silent : entry.refusals = 0) (code : Option Int) :
    Contains solo .plain (call runner callback entry code) := by
  intro s talk blind
  apply containsAt_get fun _ => rfl
  split
  · apply contains_bind (contains_note silent) _ s talk blind
    intro _
    apply contains_bind (contains_runRule runs _ _)
    intro _
    exact contains_pure rfl
  · exact contains_pure rfl s talk blind

theorem contains_repaint : Contains solo .plain repaint := by
  apply contains_bind contains_throttle
  intro _
  apply contains_bind (contains_post rfl)
  intro _
  exact contains_pure rfl

theorem contains_repaintTimes (times : Nat) : Contains solo .plain (repaintTimes times) := by
  induction times with
  | zero => exact contains_pure rfl
  | succ times ih =>
    apply contains_bind contains_repaint
    intro _
    exact ih

theorem contains_setOverlay (overlay : Option Overlay) :
    Contains solo .plain (setOverlay overlay) := by
  have installs : Contains solo .plain (modifyCanvas fun canvas => { canvas with overlay }) :=
    contains_modifyCanvas fun _ _ => rfl
  cases overlay with
  | none => exact installs
  | some overlay =>
    intro s talk blind
    apply containsAt_theCanvas fun _ => rfl
    exact contains_bind (contains_tellOverlay overlay _) (fun _ => installs) s talk blind

theorem contains_postKey (action : KeyAction) (code : Int) :
    Contains solo .plain (postKey action code) := by
  apply contains_bind (contains_modifyCanvas fun _ _ => rfl)
  intro _ s talk blind
  apply containsAt_theCanvas fun _ => rfl
  apply contains_postAll _ s talk blind
  intro kind mem
  unfold Canvas.keyEvents at mem
  split at mem
  · cases mem
  · cases List.mem_singleton.mp mem
    rfl

theorem contains_hostKey (action : KeyAction) (host : Int) :
    Contains solo .plain (hostKey action host) := by
  have posts (code : Int) :
      Contains solo .plain (do postKey action code; return true : Act Bool) := by
    apply contains_bind (contains_postKey action code)
    intro _
    exact contains_pure rfl
  intro s talk blind
  apply containsAt_theCanvas fun _ => rfl
  split
  · exact contains_pure rfl s talk blind
  · split
    · exact posts _ s talk blind
    · apply contains_bind (contains_tellOverlay _ _) _ s talk blind
      intro _
      split
      · exact posts _
      · exact contains_pure rfl

theorem contains_postPointer (action : PointerAction) (pointer : Int) (x y : Single) :
    Contains solo .plain
      (do Act.postAll ((← theCanvas).pointerEvents action pointer x y) : Act Unit) := by
  intro s talk blind
  apply containsAt_theCanvas fun _ => rfl
  apply contains_postAll _ s talk blind
  intro kind mem
  unfold Canvas.pointerEvents at mem
  split at mem
  · cases mem
  · cases List.mem_singleton.mp mem
    rfl

theorem contains_hostPointer (action : PointerAction) (pointer : Int) (x y : Single) :
    Contains solo .plain (hostPointer action pointer x y) := by
  intro s talk blind
  apply containsAt_theCanvas fun _ => rfl
  cases s.stage.canvas.overlay with
  | none => exact contains_postPointer action pointer x y s talk blind
  | some overlay =>
    have asks : Contains solo .plain (do
        tellOverlay overlay (.pointer action pointer x y)
        if !overlay.consumesPointer x then
          Act.postAll ((← theCanvas).pointerEvents action pointer x y) : Act Unit) := by
      apply contains_bind (contains_tellOverlay overlay _)
      intro _
      cases overlay.consumesPointer x with
      | true => exact contains_pure rfl
      | false => exact contains_postPointer action pointer x y
    cases action with
    | pressed | released =>
      by_cases first : pointer = 0
      · simp only [first, if_true] at asks ⊢
        exact contains_bind (contains_tellOverlay overlay _) (fun _ => asks) s talk blind
      · simp only [first, if_false]
        exact asks s talk blind
    | dragged => exact asks s talk blind

theorem contains_surfaceChanged (width height : Int) :
    Contains solo .plain (surfaceChanged width height) := by
  apply contains_postAll
  intro kind mem
  simp only [List.mem_cons, List.not_mem_nil, or_false] at mem
  rcases mem with rfl | rfl <;> rfl

/-- The overlay of a canvas that was laid out again is told so. -/
theorem contains_tellResized (canvas : Canvas) (changed : Bool) : Contains solo .plain (do
    match canvas.overlay with
    | some overlay => tellOverlay overlay (.resize canvas.layout.screen canvas.layout.placement)
    | none => pure ()
    return changed : Act Bool) := by
  split
  · apply contains_bind (contains_tellOverlay _ _)
    intro _
    exact contains_pure rfl
  · exact contains_pure rfl

theorem contains_updateSize : Contains solo .plain updateSize := by
  intro s talk blind
  apply containsAt_get fun _ => rfl
  split
  · exact contains_pure rfl s talk blind
  · cases updated : s.stage.canvas.updateSize with
    | error fault =>
      refine .of_run (fun _ b _ => ?_) (contains_throw fault s talk blind)
      have updated' : (b.cover s).stage.canvas.updateSize = .error fault := by
        rw [show (b.cover s).stage.canvas = b.canvas s.stage.canvas from rfl,
          Canvas.updateSize_canvas, updated]
        rfl
      simp only [run_bind, run_theCanvas, run_liftM, updated']
      rfl
    | ok pair =>
      refine .of_run (fun _ b _ => ?_)
        (contains_tellResized pair.2 pair.1 { s with stage := { s.stage with canvas := pair.2 } } talk blind)
      have updated' : (b.cover s).stage.canvas.updateSize = .ok (pair.1, b.canvas pair.2) := by
        rw [show (b.cover s).stage.canvas = b.canvas s.stage.canvas from rfl,
          Canvas.updateSize_canvas, updated]
        rfl
      simp only [run_bind, run_theCanvas, run_liftM, updated', run_setCanvas]
      rfl

theorem contains_displayResized (runs : Contains.Runs solo runner) (width height : Int) :
    Contains solo .plain (displayResized runner width height) := by
  apply contains_bind (contains_modifyCanvas fun _ _ => rfl)
  intro _
  apply contains_bind contains_updateSize
  intro changed s talk blind
  refine containsAt_setCanvas (f := fun canvas => { canvas with sizeReported := true })
    (fun _ => rfl) (fun _ => rfl) ?_
  dsimp only
  split
  · exact contains_call runs _ rfl none _ talk blind
  · exact contains_pure rfl _ talk blind

theorem contains_setFullscreen (fullscreen : Bool) :
    Contains solo .plain (setFullscreen fullscreen) := by
  intro s talk blind
  by_cases already : s.stage.canvas.settings.fullscreen = fullscreen
  · refine .of_run (fun _ b _ => ?_) (contains_pure (a := ()) rfl s talk blind)
    have already' : (b.cover s).stage.canvas.settings.fullscreen = fullscreen := already
    simp only [setFullscreen, run_bind, run_theCanvas, already', if_true]
  · have later : Contains solo .plain (do
        if (← get).painting then
          let l := s.stage.canvas.layout
          let _ ← Act.post (.displayResized l.displayWidth l.displayHeight)
        else
          let _ ← updateSize
          let l := (← theCanvas).layout
          let _ ← Act.post (.sizeChanged l.width l.height) : Act Unit) := by
      intro s' talk blind
      apply containsAt_get fun _ => rfl
      split
      · apply contains_bind (contains_post rfl) _ s' talk blind
        intro _
        exact contains_pure rfl
      · apply contains_bind contains_updateSize _ s' talk blind
        intro _ s' talk blind
        apply containsAt_theCanvas fun _ => rfl
        apply contains_bind (contains_post rfl) _ s' talk blind
        intro _
        exact contains_pure rfl
    refine .of_run (fun _ b _ => ?_) (later { s with stage := { s.stage with
      canvas := s.stage.canvas.setFullscreen fullscreen } } talk blind)
    have already' : ¬(b.cover s).stage.canvas.settings.fullscreen = fullscreen := already
    simp only [setFullscreen, run_bind, run_theCanvas, already', if_false, run_setCanvas]
    rfl

theorem contains_setScale (scaleToFit keepAspectRatio : Bool) (scaleRatio : Int) :
    Contains solo .answer (setScale scaleToFit keepAspectRatio scaleRatio) := by
  intro s talk blind
  cases valid : validateScaleRatio scaleRatio with
  | error error =>
    have ran (b : Backstage) : (setScale scaleToFit keepAspectRatio scaleRatio).run.run
        (b.cover s) = (.ok (.accepted (.error error)), b.cover s) := by
      simp only [setScale, Canvas.setScale, valid, run_bind, run_theCanvas]
      rfl
    exact containsAt_of_cover ran blind rfl
  | ok _ =>
    have ran (b : Backstage) : (setScale scaleToFit keepAspectRatio scaleRatio).run.run
        (b.cover s) = (.ok (.accepted (.ok ())), b.cover { s with stage := { s.stage with
          canvas := { s.stage.canvas with settings := { s.stage.canvas.settings with
            scaleToFit, keepAspectRatio, scaleRatio } } } }) := by
      simp only [setScale, Canvas.setScale, valid, run_bind, run_theCanvas]
      rfl
    exact containsAt_of_cover ran blind rfl

/-- What comes of a drawing's answer. -/
theorem contains_drawn (answer : Except Fault GraphicsState) (drawing : Drawing) (pen : Pen) :
    Contains solo .plain (do
      match answer, drawing with
      | .ok state, .report => Act.note (.graphics state)
      | .ok _, _ => pure ()
      | .error fault, _ => throw fault
      return pen : Act Pen) := by
  split
  · apply contains_bind (contains_note rfl)
    intro _
    exact contains_pure rfl
  · exact contains_pure rfl
  · apply contains_bind (contains_throw _)
    intro _
    exact contains_pure rfl

theorem contains_draw (pen : Pen) (drawing : Drawing) :
    Contains solo .plain (draw pen drawing) := by
  intro s talk blind
  exact containsAt_setCanvas (f := fun canvas =>
      { canvas with frame := canvas.frame.draw pen drawing }) (fun _ => rfl) (fun _ => rfl)
    (contains_drawn _ drawing _ _ talk blind)

theorem contains_drawBackBuffer (pen : Pen) : Contains solo .plain (drawBackBuffer pen) := by
  intro s talk blind
  apply containsAt_get fun _ => rfl
  exact contains_draw pen _ s talk blind

theorem contains_paintItems (runs : Contains.Runs solo runner) (pen : Pen)
    {items : List PaintItem} (blind : PaintItem.allBlind solo items = true) :
    Contains solo .plain (paintItems runner pen items) := by
  induction items generalizing pen with
  | nil => exact contains_pure rfl
  | cons item items ih =>
    have parts : item.blind solo = true ∧ PaintItem.allBlind solo items = true := by
      simpa [PaintItem.allBlind] using blind
    cases item with
    | drawing drawing => exact contains_bind (contains_draw pen drawing) fun pen => ih pen parts.2
    | backBuffer => exact contains_bind (contains_drawBackBuffer pen) fun pen => ih pen parts.2
    | body body =>
      apply contains_bind (contains_runBody runs parts.1)
      intro failure
      cases failure with
      | none => exact ih pen parts.2
      | some failure => exact contains_pure rfl

theorem contains_paintApp (runs : Contains.Runs solo runner) :
    Contains solo .plain (paintApp runner) := by
  intro s talk blind
  apply containsAt_theCanvas fun _ => rfl
  apply containsAt_get fun _ => rfl
  split
  · apply contains_bind (contains_drawBackBuffer _) _ s talk blind
    intro _
    exact contains_pure rfl
  · apply contains_bind (contains_holdPending runs) _ s talk blind
    intro _
    apply contains_bind (contains_note rfl)
    intro _ s' talk blind
    apply containsAt_get fun _ => rfl
    apply contains_bind (contains_paintItems runs _ blind.script) _ s' talk blind
    intro failure
    cases failure with
    | none => exact contains_runRule runs _ none
    | some failure => exact contains_pure rfl

theorem run_composeFrame (b : Backstage) (s : Session Stage) :
    composeFrame.run.run (b.cover s) = match s.stage.canvas.picture with
      | .error fault => (.error fault, b.cover s)
      | .ok screen => (.ok (), (b.give screen).cover { s with
          stage := { s.stage with canvas := s.stage.canvas.composed screen s.clock } }) := by
  have composes : (b.cover s).stage.canvas.compose (b.cover s).clock = _ :=
    Canvas.compose_canvas b s.stage.canvas s.clock
  simp only [composeFrame, run_bind, run_get, run_liftM, composes]
  cases s.stage.canvas.picture with
  | error fault => rfl
  | ok screen =>
    simp only [Except.map, run_setCanvas, Backstage.give]
    cases b.display.refusal? with
    | none => rfl
    | some error => rfl

theorem contains_composeFrame : Contains solo .plain composeFrame := by
  intro s talk blind input
  cases pictured : s.stage.canvas.picture with
  | error fault =>
    have ran (b : Backstage) : composeFrame.run.run (b.cover s) = (.error fault, b.cover s) := by
      rw [run_composeFrame, pictured]
    exact containsAt_of_cover ran blind rfl input
  | ok screen =>
    refine ⟨[screen], .ok (), { s with
      stage := { s.stage with canvas := s.stage.canvas.composed screen s.clock } }, talk, blind,
      fun _ b _ hushed => ?_⟩
    refine ⟨.ok (), b.give screen, ?_, rfl, (b.hushed_give screen).trans hushed,
      b.hands_give screen, fun _ => ?_⟩
    · rw [run_composeFrame, pictured]
    · simp [b.refusals_give screen, View.plain, View.weight]

theorem contains_composeUnlessParallel : Contains solo .plain composeUnlessParallel := by
  intro s talk blind
  apply containsAt_theCanvas fun _ => rfl
  split
  · exact contains_composeFrame s talk blind
  · exact contains_pure rfl s talk blind

/-- What a paint cycle ends with. -/
theorem contains_painted (result : Except Fault (Option Failure)) :
    Contains solo .plain (match result with
      | .ok none => do
        modifyCanvas fun canvas => { canvas with frame := canvas.frame.finish }
        composeUnlessParallel
      | .ok (some failure) => Act.log (.paintFailed failure)
      | .error fault => Act.log (.paintFaulted fault) : Act Unit) := by
  split
  · apply contains_bind (contains_modifyCanvas fun _ _ => rfl)
    intro _
    exact contains_composeUnlessParallel
  · exact contains_log rfl
  · exact contains_log rfl

theorem contains_paintCycle (runs : Contains.Runs solo runner) :
    Contains solo .plain (paintCycle runner) := by
  intro s talk blind
  by_cases idle : (!s.stage.canvas.shown || s.painting) = true
  · refine .of_run (fun _ b _ => ?_) (contains_pure (a := ()) rfl s talk blind)
    have idle' : (!(b.cover s).stage.canvas.shown || (b.cover s).painting) = true := idle
    simp only [paintCycle, run_bind, run_get, idle', if_true]
  · have stops : Contains solo .plain
        (modify fun s' => { s' with painting := s.painting } : Act Unit) :=
      contains_modify (fun _ _ => rfl) fun _ blind => blind
    have paints := contains_bind (contains_attempt (contains_paintApp runs)) fun result =>
      contains_bind stops fun _ => contains_painted result
    refine .of_run (fun _ b _ => ?_) (paints { s with painting := true } talk blind)
    have idle' : ¬(!(b.cover s).stage.canvas.shown || (b.cover s).painting) = true := idle
    simp only [paintCycle, run_bind, run_get, idle']
    rfl

theorem contains_compose : Contains solo .plain compose := by
  intro s talk blind
  apply containsAt_get fun _ => rfl
  split
  · exact contains_composeFrame s talk blind
  · exact contains_pure rfl s talk blind

theorem contains_flushBuffer (image : Image) : Contains solo .plain (flushBuffer image) := by
  intro s talk blind
  apply containsAt_get fun _ => rfl
  split
  · exact contains_log rfl s talk blind
  · apply contains_bind contains_throttle _ s talk blind
    intro _
    have submits : Contains solo .plain
        (modifyCanvas fun canvas => { canvas with frame := canvas.frame.submit image }) :=
      contains_modifyCanvas fun _ _ => rfl
    exact contains_bind submits fun _ => contains_composeUnlessParallel

theorem contains_rethrow (result : Except Fault Unit) :
    Contains solo .plain (match result with
      | .ok () => return
      | .error fault => throw fault : Act Unit) := by
  split
  · exact contains_pure rfl
  · exact contains_throw _

theorem contains_serviceRepaints (runs : Contains.Runs solo runner) :
    Contains solo .plain (serviceRepaints runner) := by
  intro s talk blind
  have still : Session.Blind solo
      { s with queue := (s.queue.flush .paint s.painting s.thread).2 } :=
    blind_fewer blind fun _ => Queue.mem_of_mem_flush
  cases flushed : s.queue.flush .paint s.painting s.thread with
  | mk outcome queue =>
    rw [flushed] at still
    have flushed' (b : Backstage) : (b.cover s).queue.flush .paint (b.cover s).painting
        (b.cover s).thread = (outcome, queue) := flushed
    by_cases taken : outcome = .take
    · have serves := contains_bind (contains_attempt (contains_paintCycle runs)) fun result =>
        contains_bind (contains_finishInline .paint s.thread) fun _ => contains_rethrow result
      refine .of_run (fun _ b _ => ?_) (serves { s with queue } talk still)
      simp only [serviceRepaints, run_bind, run_get, flushed' b, run_set, taken, if_true]
      rfl
    · refine containsAt_of_cover (fun b => ?_) still (View.weight_plain (.ok ()))
      simp only [serviceRepaints, run_bind, run_get, flushed' b, run_set, taken, if_false]
      rfl

theorem contains_snapshot : Contains solo .plain snapshot := by
  intro s talk blind
  apply containsAt_get fun _ => rfl
  split
  · exact contains_pure rfl s talk blind
  · apply containsAt_theCanvas fun _ => rfl
    have ran (b : Backstage) : (do return some (← s.stage.canvas.snapshot) : Act (Option Image)).run.run
        (b.cover s) = (s.stage.canvas.snapshot.map some, b.cover s) := by
      rw [run_bind, run_liftM]
      cases s.stage.canvas.snapshot <;> rfl
    exact containsAt_of_cover ran blind (View.weight_plain _)

theorem contains_fps : Contains solo .plain fps := by
  intro s talk blind
  apply containsAt_get fun _ => rfl
  split
  · exact contains_pure rfl s talk blind
  · apply containsAt_theCanvas fun _ => rfl
    exact contains_pure rfl s talk blind

theorem contains_createGame (suppressKeys : Bool) :
    Contains solo .plain (createGame suppressKeys) := by
  intro s talk blind
  apply containsAt_theCanvas fun _ => rfl
  apply containsAt_get fun _ => rfl
  have wraps (image : Image) : Contains solo .plain (do
      modifyCanvas fun canvas => { canvas with suppressGameKeys := suppressKeys }
      modify fun s => { s with stage := { s.stage with
        staging := s.stage.staging <|> some image } }
      return (← get).stage.backBuffer : Act Image) := by
    apply contains_bind (contains_modifyCanvas fun _ _ => rfl)
    intro _
    refine contains_bind (contains_modify ?_ ?_) fun _ s talk blind => ?_
    · exact fun _ _ => rfl
    · exact fun _ blind => blind
    · apply containsAt_get fun _ => rfl
      exact contains_pure rfl s talk blind
  dsimp only
  split
  · exact contains_bind (contains_setBackBuffer _) (fun _ => wraps _) s talk blind
  · exact wraps _ s talk blind

theorem contains_drawGame (drawings : List Drawing) :
    Contains solo .plain (drawGame drawings) := by
  intro s talk blind
  apply containsAt_get fun _ => rfl
  apply contains_bind (contains_setBackBuffer _) _ s talk blind
  intro _
  exact contains_pure rfl

theorem contains_flushGame : Contains solo .plain flushGame := by
  intro s talk blind
  apply containsAt_get fun _ => rfl
  dsimp only
  split
  · exact contains_pure rfl s talk blind
  · refine contains_bind (contains_modify ?_ ?_) (fun _ => contains_flushBuffer _) s talk blind
    · exact fun _ _ => rfl
    · exact fun _ blind => blind

theorem contains_paintGame (image : Image) (drawings : List Drawing) :
    Contains solo .plain (paintGame image drawings) := by
  intro s talk blind
  apply containsAt_get fun _ => rfl
  dsimp only
  split
  · exact contains_pure rfl s talk blind
  · exact contains_throw _ s talk blind

theorem contains_handle (runs : Contains.Runs solo runner) (event : Event Job)
    (blind : EventKind.blind solo event.kind = true) :
    Contains solo .plain (handle runner event) := by
  have ended {act : Act Unit} (contains : Contains solo .plain act) :
      Contains solo .plain (do act; return none : Act (Option Failure)) := by
    apply contains_bind contains
    intro _
    exact contains_pure rfl
  have shows (shown : Bool) :
      Contains solo .plain (modifyCanvas fun canvas => { canvas with shown }) :=
    contains_modifyCanvas fun _ _ => rfl
  obtain ⟨id, kind⟩ := event
  cases kind with
  | paint => exact ended (contains_paintCycle runs)
  | key action code => exact ended (contains_call runs _ rfl _)
  | pointer action pointer x y => exact ended (contains_call runs _ rfl none)
  | sizeChanged width height => exact ended (contains_call runs _ rfl none)
  | displayResized width height => exact ended (contains_displayResized runs width height)
  | showNotify =>
    exact contains_bind (shows true) fun _ => ended (contains_call runs _ rfl none)
  | hideNotify =>
    exact contains_bind (shows false) fun _ => ended (contains_call runs _ rfl none)
  | task job => exact ended (contains_runJob runs blind)

theorem contains_perform (runs : Contains.Runs solo runner) (request : Request)
    (blind : request.blind = true) : Contains solo .answer (perform runner request) := by
  have nothing {act : Act Unit} (contains : Contains solo .plain act) :
      Contains solo .answer (done act) := by
    apply contains_bind contains
    intro _
    exact contains_pure rfl
  have answers {α : Type} {act : Act α} (contains : Contains solo .plain act) (answer : α → Answer)
      (silent : ∀ a, (answer a).refusals = 0) :
      Contains solo .answer (do return answer (← act) : Act Answer) := by
    apply contains_bind contains
    intro a
    exact contains_pure (silent a)
  have asks (answer : Canvas → Answer) (silent : ∀ canvas, (answer canvas).refusals = 0)
      (same : ∀ (b : Backstage) canvas, answer (b.canvas canvas) = answer canvas) :
      Contains solo .answer (do return answer (← theCanvas) : Act Answer) := by
    intro s talk blind
    have same' (b : Backstage) : (pure (answer (b.canvas s.stage.canvas)) : Act Answer) =
        pure (answer s.stage.canvas) := by rw [same]
    exact containsAt_theCanvas same' (contains_pure (silent _) s talk blind)
  have changes (f : Canvas → Canvas) (covers : ∀ (b : Backstage) canvas,
      f (b.canvas canvas) = b.canvas (f canvas)) : Contains solo .answer (change f) :=
    nothing (contains_modifyCanvas covers)
  cases request with
  | presented | lastFrame => cases blind
  | repaint times => exact nothing (contains_repaintTimes times)
  | repaintRegion region => exact nothing contains_repaint
  | serviceRepaints => exact nothing (contains_serviceRepaints runs)
  | compose => exact nothing contains_compose
  | flushBuffer image => exact nothing (contains_flushBuffer image)
  | snapshot => exact answers contains_snapshot .picture fun _ => rfl
  | fps => exact answers contains_fps .rate fun _ => rfl
  | isPainting =>
    intro s talk blind
    apply containsAt_get fun _ => rfl
    exact contains_pure rfl s talk blind
  | key action code => exact nothing (contains_postKey action code)
  | hostKeyDown host repeated => exact answers (contains_hostKey _ host) .truth fun _ => rfl
  | hostKeyUp host => exact answers (contains_hostKey _ host) .truth fun _ => rfl
  | pointer action pointer x y => exact nothing (contains_hostPointer action pointer x y)
  | surfaceCreated =>
    apply nothing (contains_postAll fun kind mem => ?_)
    cases List.mem_singleton.mp mem
    rfl
  | surfaceDestroyed =>
    apply nothing (contains_postAll fun kind mem => ?_)
    cases List.mem_singleton.mp mem
    rfl
  | surfaceChanged width height => exact nothing (contains_surfaceChanged width height)
  | setFullscreen fullscreen => exact nothing (contains_setFullscreen fullscreen)
  | setScale fit aspect ratio => exact contains_setScale fit aspect ratio
  | setFpsLimit fpsLimit =>
    refine contains_bind (contains_modifyCanvas ?_) fun _ => ?_
    · exact fun _ _ => rfl
    · exact asks (fun canvas => .number canvas.limiter.fpsLimit) (fun _ => rfl) fun _ _ => rfl
  | setOverlay overlay => exact nothing (contains_setOverlay overlay)
  | gameKeys =>
    intro s talk blind
    apply containsAt_theCanvas fun _ => rfl
    apply containsAt_get fun _ => rfl
    exact contains_pure rfl s talk blind
  | createGame suppressKeys =>
    exact answers (contains_createGame suppressKeys)
      (fun buffer => .size buffer.width buffer.height) fun _ => rfl
  | drawGame drawings => exact answers (contains_drawGame drawings) .drawn fun _ => rfl
  | flushGame | flushGameRegion => exact nothing contains_flushGame
  | paintGame image drawings =>
    exact answers (contains_paintGame image drawings) (fun image => .picture (some image))
      fun _ => rfl
  | setVirtualSize | setFilter | setTouchInput | setHardwareAcceleration | setKeyLayout |
      setHostKeys | setBackground =>
    exact changes _ fun _ _ => rfl
  | state | heldKeys | gameAction | keyCode | keyName | debugText =>
    exact asks _ (fun _ => rfl) fun _ _ => rfl

theorem contains_stage : Contains.Hosts solo Host.stage where
  handle := contains_handle
  perform := contains_perform

end Stage

end Handset
