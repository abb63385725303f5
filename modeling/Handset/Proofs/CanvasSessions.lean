import Handset.Proofs.Engine
import Handset.Proofs.Mirror
import Handset.Proofs.Studio

/-! Sessions of a canvas. What an action does to the canvas is what threads do to it, one step after
the other, so that sessions keep what threads keep. -/

namespace Handset.Stage

/-- The relation sees nothing but the queue, the images and the layout. -/
def Configures (R : Session Stage → Session Stage → Prop) : Prop :=
  ∀ s s' : Session Stage, s'.queue = s.queue →
    s'.stage.canvas.layout = s.stage.canvas.layout →
    s'.stage.canvas.frame = s.stage.canvas.frame → R s s'

/-- What threads make of a canvas is in the relation, as long as the queue is as it was. -/
def Follows (R : Session Stage → Session Stage → Prop) : Prop :=
  ∀ s s' : Session Stage, s'.queue = s.queue → s.stage.canvas.Leads s'.stage.canvas → R s s'

variable {R : Session Stage → Session Stage → Prop} {runner : Runner Stage}

theorem Follows.configures (follows : Follows R) : Configures R :=
  fun s s' queue layout frame => follows s s' queue (Canvas.leads_configure layout frame)

theorem obeys_theCanvas {α : Type} {next : Canvas → Act α}
    (rest : ∀ s, ObeysAt R (next s.stage.canvas) s) : Obeys R (theCanvas >>= next) :=
  rest

theorem obeys_modifyCanvas {f : Canvas → Canvas} (configures : Configures R)
    (layout : ∀ canvas, (f canvas).layout = canvas.layout)
    (frame : ∀ canvas, (f canvas).frame = canvas.frame) : Obeys R (modifyCanvas f) :=
  fun _ => configures _ _ rfl (layout _) (frame _)

theorem obeys_throttle (configures : Configures R) : Obeys R throttle :=
  fun _ => configures _ _ rfl rfl rfl

theorem obeys_setBackBuffer (configures : Configures R) (image : Image) :
    Obeys R (setBackBuffer image) :=
  fun _ => configures _ _ rfl rfl rfl

section Plain

variable (enduring : Enduring R) (configures : Configures R)

include enduring

theorem obeys_tellOverlay (overlay : Overlay) (event : OverlayCall) :
    Obeys R (tellOverlay overlay event) :=
  obeys_forM enduring fun _ => obeys_note enduring _

theorem obeys_call (steps : runner.Obeys R) (callback : Callback) (entry : Note)
    (code : Option Int) : Obeys R (call runner callback entry code) := by
  apply obeys_get
  intro s
  split
  · apply (obeys_note enduring entry).bind enduring ?_ s
    intro _
    apply (obeys_runRule enduring steps _ _).bind enduring
    intro _
    exact obeys_pure enduring ()
  · exact obeys_pure enduring () s

theorem obeys_surfaceChanged (width height : Int) : Obeys R (surfaceChanged width height) :=
  obeys_postAll enduring _

theorem obeys_postPointer (action : PointerAction) (pointer : Int) (x y : Single) :
    Obeys R (do Act.postAll ((← theCanvas).pointerEvents action pointer x y) : Act Unit) :=
  obeys_theCanvas fun s => obeys_postAll enduring _ s

theorem obeys_hostPointer (action : PointerAction) (pointer : Int) (x y : Single) :
    Obeys R (hostPointer action pointer x y) := by
  apply obeys_theCanvas
  intro s
  cases s.stage.canvas.overlay with
  | none => exact obeys_postPointer enduring action pointer x y s
  | some overlay =>
    have asks : Obeys R (do
        tellOverlay overlay (.pointer action pointer x y)
        if !overlay.consumesPointer x then
          Act.postAll ((← theCanvas).pointerEvents action pointer x y) : Act Unit) := by
      apply (obeys_tellOverlay enduring overlay _).bind enduring
      intro _
      cases overlay.consumesPointer x with
      | true => exact obeys_pure enduring ()
      | false => exact obeys_postPointer enduring action pointer x y
    cases action with
    | pressed | released =>
      by_cases first : pointer = 0
      · simp only [first, if_true] at asks ⊢
        exact (obeys_tellOverlay enduring overlay _).bind enduring (fun _ => asks) s
      · simp only [first, if_false]
        exact asks s
    | dragged => exact asks s

theorem obeys_paintGame (image : Image) (drawings : List Drawing) :
    Obeys R (paintGame image drawings) := by
  apply obeys_get
  intro s
  dsimp only
  split
  · exact obeys_pure enduring _ s
  · exact obeys_throw enduring _ s

theorem obeys_snapshot : Obeys R snapshot := by
  apply obeys_get
  intro s
  split
  · exact obeys_pure enduring none s
  · apply obeys_theCanvas (fun s => ?_) s
    exact ObeysAt.liftM enduring fun image _ => obeys_pure enduring (some image) s

theorem obeys_presentedFrames : Obeys R presentedFrames := by
  apply obeys_get
  intro s
  split
  · exact obeys_pure enduring 0 s
  · exact obeys_theCanvas (fun s => obeys_pure enduring _ s) s

theorem obeys_fps : Obeys R fps := by
  apply obeys_get
  intro s
  split
  · exact obeys_pure enduring none s
  · exact obeys_theCanvas (fun s => obeys_pure enduring _ s) s

include configures

theorem obeys_repaint : Obeys R repaint := by
  apply (obeys_throttle configures).bind enduring
  intro _
  apply (obeys_post enduring _).bind enduring
  intro _
  exact obeys_pure enduring ()

theorem obeys_repaintTimes (times : Nat) : Obeys R (repaintTimes times) := by
  induction times with
  | zero => exact obeys_pure enduring ()
  | succ times ih => exact (obeys_repaint enduring configures).bind enduring fun _ => ih

theorem obeys_setOverlay (overlay : Option Overlay) : Obeys R (setOverlay overlay) := by
  have installs : Obeys R (modifyCanvas fun canvas => { canvas with overlay }) :=
    obeys_modifyCanvas configures (fun _ => rfl) fun _ => rfl
  cases overlay with
  | none => exact installs
  | some overlay =>
    apply obeys_theCanvas
    intro s
    exact (obeys_tellOverlay enduring overlay _).bind enduring (fun _ => installs) s

theorem obeys_postKey (action : KeyAction) (code : Int) : Obeys R (postKey action code) := by
  have records : Obeys R (modifyCanvas (·.recordKey action code)) :=
    obeys_modifyCanvas configures (fun _ => rfl) fun _ => rfl
  apply records.bind enduring
  intro _
  exact obeys_theCanvas fun s => obeys_postAll enduring _ s

theorem obeys_hostKey (action : KeyAction) (host : Int) : Obeys R (hostKey action host) := by
  apply obeys_theCanvas
  intro s
  cases s.stage.canvas.hostKeys.convert? host with
  | none => exact obeys_pure enduring false s
  | some code =>
    have posts : Obeys R (do postKey action code; return true : Act Bool) :=
      (obeys_postKey enduring configures action code).bind enduring fun _ =>
        obeys_pure enduring true
    cases s.stage.canvas.overlay with
    | none => exact posts s
    | some overlay =>
      apply (obeys_tellOverlay enduring overlay _).bind enduring ?_ s
      intro _
      cases overlay.consumesKey code with
      | true => exact obeys_pure enduring true
      | false => exact posts

theorem obeys_createGame (suppressKeys : Bool) : Obeys R (createGame suppressKeys) := by
  apply obeys_theCanvas
  intro s
  apply obeys_get (fun s => ?_) s
  have wraps : ∀ image : Image, Obeys R (do
      modifyCanvas fun canvas => { canvas with suppressGameKeys := suppressKeys }
      modify fun s => { s with stage := { s.stage with
        staging := s.stage.staging <|> some image } }
      return (← get).stage.backBuffer : Act Image) := by
    intro image
    have first : Obeys R
        (modifyCanvas fun canvas => { canvas with suppressGameKeys := suppressKeys }) :=
      obeys_modifyCanvas configures (fun _ => rfl) fun _ => rfl
    apply first.bind enduring
    intro _ s
    have stages : ObeysAt R (modify fun s => { s with stage := { s.stage with
        staging := s.stage.staging <|> some image } } : Act Unit) s :=
      configures _ _ rfl rfl rfl
    apply stages.bind enduring
    intro _
    exact obeys_get fun s => obeys_pure enduring _ s
  dsimp only
  split
  · exact (obeys_setBackBuffer configures _).bind enduring (fun _ => wraps _) s
  · exact wraps _ s

theorem obeys_setScale (scaleToFit keepAspectRatio : Bool) (scaleRatio : Int) :
    Obeys R (setScale scaleToFit keepAspectRatio scaleRatio) := by
  apply obeys_theCanvas
  intro s
  unfold Canvas.setScale
  cases validateScaleRatio scaleRatio with
  | error error => exact obeys_pure enduring _ s
  | ok _ => exact configures _ _ rfl rfl rfl

end Plain

section Images

variable (enduring : Enduring R) (follows : Follows R)

include enduring follows

theorem obeys_updateSize : Obeys R updateSize := by
  apply obeys_get
  intro s
  split
  · exact obeys_pure enduring false s
  · apply obeys_theCanvas (fun s => ?_) s
    refine ObeysAt.liftM enduring fun updated fitted => ?_
    obtain ⟨changed, canvas⟩ := updated
    have sets : ObeysAt R (setCanvas canvas) s :=
      follows _ _ rfl (Canvas.leads_updateSize fitted)
    apply sets.bind enduring
    intro _
    have answers := obeys_pure enduring (σ := Stage) changed
    dsimp only
    split
    · exact (obeys_tellOverlay enduring _ _).bind enduring fun _ => answers
    · exact answers

theorem obeys_displayResized (steps : runner.Obeys R) (width height : Int) :
    Obeys R (displayResized runner width height) := by
  have learns : Obeys R (modifyCanvas (·.setDisplaySize width height)) :=
    obeys_modifyCanvas follows.configures (fun _ => rfl) fun _ => rfl
  apply learns.bind enduring
  intro _
  apply (obeys_updateSize enduring follows).bind enduring
  intro changed
  apply obeys_theCanvas
  intro s
  have reports : ObeysAt R (setCanvas { s.stage.canvas with sizeReported := true }) s :=
    follows.configures _ _ rfl rfl rfl
  apply reports.bind enduring
  intro _
  dsimp only
  split
  · exact obeys_call enduring steps _ _ _
  · exact obeys_pure enduring ()

theorem obeys_draw (pen : Pen) (drawing : Drawing) : Obeys R (draw pen drawing) := by
  apply obeys_theCanvas
  intro s
  have draws : ObeysAt R
      (setCanvas { s.stage.canvas with frame := s.stage.canvas.frame.draw pen drawing }) s :=
    follows _ _ rfl (Canvas.leads_draw ..)
  apply draws.bind enduring
  intro _
  dsimp only
  split
  · exact (obeys_note enduring _).bind enduring fun _ => obeys_pure enduring _
  · exact obeys_pure enduring _
  · exact (obeys_throw enduring _).bind enduring fun _ => obeys_pure enduring _

theorem obeys_drawBackBuffer (pen : Pen) : Obeys R (drawBackBuffer pen) :=
  obeys_get fun s => obeys_draw enduring follows pen _ s

theorem obeys_paintItems (steps : runner.Obeys R) (pen : Pen) (items : List PaintItem) :
    Obeys R (paintItems runner pen items) := by
  induction items generalizing pen with
  | nil => exact obeys_pure enduring none
  | cons item items ih =>
    cases item with
    | drawing drawing => exact (obeys_draw enduring follows pen drawing).bind enduring ih
    | backBuffer => exact (obeys_drawBackBuffer enduring follows pen).bind enduring ih
    | body body =>
      apply (obeys_runBody enduring steps body).bind enduring
      intro failure
      cases failure with
      | none => exact ih pen
      | some failure => exact obeys_pure enduring (some failure)

theorem obeys_paintApp (steps : runner.Obeys R) : Obeys R (paintApp runner) := by
  apply obeys_theCanvas
  intro s
  apply obeys_get (fun s => ?_) s
  split
  · exact (obeys_drawBackBuffer enduring follows _).bind enduring
      (fun _ => obeys_pure enduring none) s
  · apply (obeys_holdPending enduring steps).bind enduring ?_ s
    intro _
    apply (obeys_note enduring _).bind enduring
    intro _
    apply obeys_get
    intro s
    apply (obeys_paintItems enduring follows steps _ s.script).bind enduring ?_ s
    intro failure
    cases failure with
    | none => exact obeys_runRule enduring steps _ none
    | some failure => exact obeys_pure enduring (some failure)

theorem obeys_composeFrame : Obeys R composeFrame := by
  apply obeys_get
  intro s
  refine ObeysAt.liftM enduring fun composed shown => ?_
  obtain ⟨refusal, canvas⟩ := composed
  have sets : ObeysAt R (setCanvas canvas) s := follows _ _ rfl (Canvas.leads_compose shown)
  apply sets.bind enduring
  intro _
  cases refusal with
  | none => exact obeys_pure enduring ()
  | some error => exact obeys_log enduring _

theorem obeys_composeUnlessParallel : Obeys R composeUnlessParallel := by
  apply obeys_theCanvas
  intro s
  split
  · exact obeys_composeFrame enduring follows s
  · exact obeys_pure enduring () s

theorem obeys_paintCycle (steps : runner.Obeys R) : Obeys R (paintCycle runner) := by
  apply obeys_get
  intro s
  split
  · exact obeys_pure enduring () s
  · refine ObeysAt.bind enduring (enduring.quiet rfl rfl) fun _ => ?_
    apply (obeys_attempt (obeys_paintApp enduring follows steps)).bind enduring
    intro result
    have ends : Obeys R (modify fun s' => { s' with painting := s.painting } : Act Unit) :=
      obeys_modify enduring (fun _ => rfl) fun _ => rfl
    apply ends.bind enduring
    intro _
    have finishes : Obeys R
        (modifyCanvas fun canvas => { canvas with frame := canvas.frame.finish }) :=
      fun s => follows _ _ rfl (Canvas.leads_finish _)
    split
    · exact finishes.bind enduring fun _ => obeys_composeUnlessParallel enduring follows
    · exact obeys_log enduring _
    · exact obeys_log enduring _

theorem obeys_compose : Obeys R compose := by
  apply obeys_get
  intro s
  split
  · exact obeys_composeFrame enduring follows s
  · exact obeys_pure enduring () s

theorem obeys_flushBuffer (image : Image) : Obeys R (flushBuffer image) := by
  apply obeys_get
  intro s
  split
  · exact obeys_log enduring _ s
  · apply (obeys_throttle follows.configures).bind enduring ?_ s
    intro _
    have submits : Obeys R
        (modifyCanvas fun canvas => { canvas with frame := canvas.frame.submit image }) :=
      fun s => follows _ _ rfl (Canvas.leads_submit ..)
    exact submits.bind enduring fun _ => obeys_composeUnlessParallel enduring follows

theorem obeys_setFullscreen (fullscreen : Bool) : Obeys R (setFullscreen fullscreen) := by
  apply obeys_theCanvas
  intro s
  split
  · exact obeys_pure enduring () s
  · have sets : ObeysAt R (setCanvas (s.stage.canvas.setFullscreen fullscreen)) s :=
      follows.configures _ _ rfl rfl rfl
    apply sets.bind enduring
    intro _
    apply obeys_get
    intro s
    split
    · exact (obeys_post enduring _).bind enduring (fun _ => obeys_pure enduring ()) s
    · apply (obeys_updateSize enduring follows).bind enduring ?_ s
      intro _
      apply obeys_theCanvas
      intro s
      exact (obeys_post enduring _).bind enduring (fun _ => obeys_pure enduring ()) s

theorem obeys_flushGame : Obeys R flushGame := by
  apply obeys_get
  intro s
  dsimp only
  split
  · exact obeys_pure enduring () s
  · refine ObeysAt.bind enduring (follows.configures _ _ rfl rfl rfl) fun _ => ?_
    exact obeys_flushBuffer enduring follows _

theorem obeys_serviceRepaints (steps : runner.Obeys R) : Obeys R (serviceRepaints runner) := by
  intro s
  unfold ObeysAt
  cases flushed : s.queue.flush .paint s.painting s.thread with
  | mk outcome queue =>
    by_cases taken : outcome = .take
    · subst taken
      have kept : R { s with queue } _ :=
        obeys_paintCycle enduring follows steps { s with queue }
      cases ran : (paintCycle runner).run.run { s with queue } with
      | mk result s' =>
        rw [ran] at kept
        simp only [serviceRepaints, run_bind, run_get, flushed, run_set, if_true, run_attempt, ran]
        cases result with
        | ok _ => exact enduring.taken flushed kept
        | error fault => exact enduring.taken flushed kept
    · obtain rfl := Queue.flush_of_ne_take flushed taken
      simp only [serviceRepaints, run_bind, run_get, flushed, run_set, taken, if_false]
      exact enduring.quiet rfl rfl

theorem obeys_handle (steps : runner.Obeys R) (event : Event Job) :
    Obeys R (handle runner event) := by
  have none := obeys_pure enduring (none : Option Failure)
  have shows (shown : Bool) : Obeys R (modifyCanvas fun canvas => { canvas with shown }) :=
    obeys_modifyCanvas follows.configures (fun _ => rfl) fun _ => rfl
  unfold handle
  split
  · exact (obeys_paintCycle enduring follows steps).bind enduring fun _ => none
  · exact (obeys_call enduring steps _ _ _).bind enduring fun _ => none
  · exact (obeys_call enduring steps _ _ _).bind enduring fun _ => none
  · exact (obeys_call enduring steps _ _ _).bind enduring fun _ => none
  · exact (obeys_displayResized enduring follows steps _ _).bind enduring fun _ => none
  · apply (shows true).bind enduring
    intro _
    exact (obeys_call enduring steps _ _ _).bind enduring fun _ => none
  · apply (shows false).bind enduring
    intro _
    exact (obeys_call enduring steps _ _ _).bind enduring fun _ => none
  · exact (obeys_runJob enduring steps _).bind enduring fun _ => none

end Images

/-- What a request comes to, as long as those that paint, compose or fit the images keep to the
relation. -/
theorem obeysAt_perform (enduring : Enduring R) (configures : Configures R) {s : Session Stage}
    (service : ObeysAt R (serviceRepaints runner) s) (compose : ObeysAt R compose s)
    (flush : ∀ image, ObeysAt R (flushBuffer image) s)
    (fullscreen : ∀ fullscreen, ObeysAt R (setFullscreen fullscreen) s)
    (game : ObeysAt R flushGame s) (request : Request) :
    ObeysAt R (perform runner request) s := by
  have nothing : ∀ _ : Unit, Obeys R (return .nothing : Act Answer) :=
    fun _ => obeys_pure enduring _
  cases request with
  | repaint times => exact (obeys_repaintTimes enduring configures times).bind enduring nothing s
  | repaintRegion region => exact (obeys_repaint enduring configures).bind enduring nothing s
  | serviceRepaints => exact service.bind enduring nothing
  | compose => exact compose.bind enduring nothing
  | flushBuffer image => exact (flush image).bind enduring nothing
  | snapshot => exact (obeys_snapshot enduring).bind enduring (fun _ => obeys_pure enduring _) s
  | presented =>
    apply (obeys_presentedFrames enduring).bind enduring ?_ s
    intro frames
    exact obeys_theCanvas fun s => obeys_pure enduring _ s
  | fps => exact (obeys_fps enduring).bind enduring (fun _ => obeys_pure enduring _) s
  | key action code => exact (obeys_postKey enduring configures action code).bind enduring nothing s
  | hostKeyDown host repeated =>
    exact (obeys_hostKey enduring configures _ host).bind enduring
      (fun _ => obeys_pure enduring _) s
  | hostKeyUp host =>
    exact (obeys_hostKey enduring configures _ host).bind enduring
      (fun _ => obeys_pure enduring _) s
  | pointer action pointer x y =>
    exact (obeys_hostPointer enduring action pointer x y).bind enduring nothing s
  | surfaceCreated => exact (obeys_postAll enduring _).bind enduring nothing s
  | surfaceDestroyed => exact (obeys_postAll enduring _).bind enduring nothing s
  | surfaceChanged width height =>
    exact (obeys_surfaceChanged enduring width height).bind enduring nothing s
  | setFullscreen on => exact (fullscreen on).bind enduring nothing
  | setScale fit aspect ratio => exact obeys_setScale enduring configures fit aspect ratio s
  | setOverlay overlay =>
    exact (obeys_setOverlay enduring configures overlay).bind enduring nothing s
  | createGame suppressKeys =>
    exact (obeys_createGame enduring configures suppressKeys).bind enduring
      (fun _ => obeys_pure enduring _) s
  | flushGame => exact game.bind enduring nothing
  | flushGameRegion region => exact game.bind enduring nothing
  | paintGame image drawings =>
    exact (obeys_paintGame enduring image drawings).bind enduring (fun _ => obeys_pure enduring _) s
  | setVirtualSize | setFilter | setFpsLimit | setTouchInput | setHardwareAcceleration |
      setKeyLayout | setHostKeys | setBackground | drawGame =>
    exact configures _ _ rfl rfl rfl
  | lastFrame | isPainting | state | heldKeys | gameAction | keyCode | keyName | debugText |
      gameKeys =>
    exact enduring.quiet rfl rfl

/-- A session of a canvas keeps to what threads keep to. -/
theorem obeys_stage (enduring : Enduring R) (follows : Follows R) : Host.stage.Obeys R where
  handle steps event := obeys_handle enduring follows steps event
  perform steps request := fun s =>
    obeysAt_perform enduring follows.configures (obeys_serviceRepaints enduring follows steps s)
      (obeys_compose enduring follows s) (fun image => obeys_flushBuffer enduring follows image s)
      (fun fullscreen => obeys_setFullscreen enduring follows fullscreen s)
      (obeys_flushGame enduring follows s) request
  service steps := obeys_serviceRepaints enduring follows steps

/-- Neither the images nor the layout change. -/
def Untouched (s s' : Session Stage) : Prop :=
  s'.stage.canvas.layout = s.stage.canvas.layout ∧ s'.stage.canvas.frame = s.stage.canvas.frame

theorem enduring_untouched : Enduring Untouched where
  quiet stage _ := by
    unfold Untouched
    rw [stage]
    exact ⟨rfl, rfl⟩
  trans first second := ⟨second.1.trans first.1, second.2.trans first.2⟩
  post _ _ := ⟨rfl, rfl⟩
  close _ := ⟨rfl, rfl⟩
  remove _ _ := ⟨rfl, rfl⟩
  handled _ handles := handles
  taken _ runs := runs

theorem configures_untouched : Configures Untouched :=
  fun _ _ _ layout frame => ⟨layout, frame⟩

/-- Whatever a thread asks of the canvas from inside a paint, the images and the layout are left
alone. -/
theorem untouched_perform {s : Session Stage} (painting : s.painting = true) (runner : Runner Stage)
    (request : Request) : Untouched s ((perform runner request).run.run s).2 := by
  have nothing : Untouched s s := ⟨rfl, rfl⟩
  apply obeysAt_perform enduring_untouched configures_untouched
  · have flushed : s.queue.flush .paint s.painting s.thread = (.reentrant, s.queue) := by
      rw [painting]
      rfl
    simp only [ObeysAt, serviceRepaints, run_bind, run_get, flushed, run_set, reduceCtorEq,
      if_false]
    exact nothing
  · simp only [ObeysAt, compose, run_bind, run_get, painting]
    exact nothing
  · intro image
    simp only [ObeysAt, flushBuffer, run_bind, run_get, painting, if_true]
    exact nothing
  · intro fullscreen
    simp only [ObeysAt, setFullscreen, run_bind, run_theCanvas]
    split
    · exact nothing
    · simp only [run_bind, run_setCanvas, run_get, painting, if_true]
      exact ⟨rfl, rfl⟩
  · simp only [ObeysAt, flushGame, run_bind, run_get]
    split
    · exact nothing
    · simp only [run_bind, run_modify, flushBuffer, run_get, painting, if_true]
      exact ⟨rfl, rfl⟩

theorem enduring_leads :
    Enduring fun s s' : Session Stage => s.stage.canvas.Leads s'.stage.canvas where
  quiet stage _ := by
    rw [stage]
    exact Canvas.Leads.refl _
  trans := Canvas.Leads.trans
  post _ _ := Canvas.Leads.refl _
  close _ := Canvas.Leads.refl _
  remove _ _ := Canvas.Leads.refl _
  handled _ handles := handles
  taken _ runs := runs

theorem leads_run (s : Session Stage) (depth : Nat) (steps : List Step) :
    s.stage.canvas.Leads ((steps.mapM (Host.stage.step depth)).run s).2.stage.canvas :=
  Host.obeys_run enduring_leads (obeys_stage enduring_leads fun _ _ _ leads => leads) depth steps s

end Handset.Stage

namespace Handset.Canvas

/-- The images of a canvas always match the layout that they are for, in whatever order threads come
to them. While the application paints, the canvas has the size of the image it draws in and keeps
it, also if the application asks something of the canvas. In a session that comes to the same after
any steps, with callbacks that fail or fault and sizes that have no layout. -/
theorem images_match {config : Config} {kind : DisplayKind} {width height : Int} {now : Nat}
    {canvas : Canvas} (created : create config kind width height now = .ok canvas) :
    (∀ studio, Studio.Leads ⟨canvas, none⟩ studio →
      studio.canvas.frame.Matches studio.layout ∧
      (studio.holder = some .painting → ∀ later, studio.Paints later →
        later.canvas.layout.size = studio.canvas.layout.size ∧
        later.canvas.frame.offscreen.size = later.canvas.layout.size)) ∧
    (∀ (s : Session Stage) (runner : Runner Stage) (request : Request), s.painting = true →
      Stage.Untouched s ((Stage.perform runner request).run.run s).2) ∧
    ∀ (s : Session Stage) (depth : Nat) (steps : List Step), s.stage.canvas = canvas →
      let canvas' := ((steps.mapM (Host.stage.step depth)).run s).2.stage.canvas
      canvas.Leads canvas' ∧ canvas'.frame.Matches canvas'.layout := by
  have matched := matches_create created
  refine ⟨fun studio leads => ?_, fun s runner request painting => ?_, fun s depth steps same => ?_⟩
  · have sound : studio.Sound := Studio.Leads.sound leads matched
    exact ⟨sound, fun painting later paints => paints.size_eq painting sound⟩
  · exact Stage.untouched_perform painting runner request
  · have leads := Stage.leads_run s depth steps
    rw [same] at leads
    exact ⟨leads, leads.matches matched⟩

/-- While the application paints, another thread sets a larger display; the images follow when the
paint has failed. -/
theorem images_match_resizedInPaint :
    let resized := pixelCanvas.setDisplaySize 3 2
    resized.layout.size = ⟨1, 1⟩ ∧ resized.frame.offscreen.size = ⟨1, 1⟩ ∧
    ∃ layout, resized.settings.layout = .ok layout ∧ layout.size = ⟨3, 2⟩ ∧
      (resized.frame.resize layout).Matches layout := by
  have paints : Studio.Leads ⟨pixelCanvas, none⟩ ⟨pixelCanvas, some .painting⟩ := .single .paint
  have sets : Studio.Step ⟨pixelCanvas, some .painting⟩
      ⟨pixelCanvas.setDisplaySize 3 2, some .painting⟩ := .configure rfl rfl
  have holds := images_match create_pixelCanvas
  have during := (holds.1 _ paints).2 rfl _ (.single ⟨sets, rfl⟩)
  refine ⟨during.1, during.2.trans during.1, ?_⟩
  obtain ⟨layout, computed, size⟩ : ∃ layout,
      (pixelCanvas.setDisplaySize 3 2).settings.layout = .ok layout ∧ layout.size = ⟨3, 2⟩ :=
    ⟨_, rfl, rfl⟩
  have fits := ((paints.tail sets).tail .fail).tail (.fit computed)
  exact ⟨layout, computed, size, (holds.1 _ fits).1⟩

end Handset.Canvas
