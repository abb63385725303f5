import Handset.Demo
import Handset.Proofs.Painting

/-! A session with a canvas, from its requests and events up to whole lists of steps: all that it
does is a run of moves of a world that starts with the same canvas. -/

namespace Handset

namespace World

variable {w v : World Job}

theorem leads_toDo (call : Call) (made : w.perform call = some v) : (w.toDo call).Leads v := by
  apply Leads.one (.call w.calls.length)
  have rest : (w.calls ++ [call]).eraseIdx w.calls.length = w.calls := by
    simp [List.eraseIdx_append_of_length_le]
  simp only [step, toDo, List.getElem?_concat_length, Option.bind_some, rest]
  exact made

variable {changed : Bool} {canvas : Canvas}

theorem handle_recompute (event : Event Job) (free : w.locked = false)
    (computed : w.canvas.updateSize = .ok (changed, canvas)) :
    w.handle ⟨event, .recompute⟩ true 0 =
      some ({ w with canvas, log := .resized event.id :: w.log }.toPhase ⟨event, .recompute⟩
        (.settle changed)) := by
  simp only [handle, free, Bool.false_eq_true, if_false, recompute, computed]
  rfl

theorem handle_recompute_error (event : Event Job) (free : w.locked = false) {fault : Fault}
    (failed : w.canvas.updateSize = .error fault) :
    w.handle ⟨event, .recompute⟩ true 0 =
      some ((w.note (.faulted (some event.id))).toPhase ⟨event, .recompute⟩ .leave) := by
  simp only [handle, free, Bool.false_eq_true, if_false, recompute, failed]

end World

namespace Stage

variable {s : Session Stage} {w : World Job} {runner : Runner Stage}

theorem mirrored_notes {α : Type} {f : α → Note} {items : List α} :
    Mirrored (items.forM fun item => Act.note (f item) : Act Unit) := by
  induction items with
  | nil => exact mirrored_pure ()
  | cons item items ih =>
    apply Mirrored.bind (mirrored_note _)
    intro _
    exact ih

theorem mirrored_tellOverlay (overlay : Overlay) (event : OverlayCall) :
    Mirrored (tellOverlay overlay event) :=
  mirrored_notes

theorem mirrored_repaint : Mirrored repaint := by
  apply Mirrored.bind mirrored_throttle
  intro _
  apply Mirrored.bind (mirrored_post rfl)
  intro _
  exact mirrored_pure ()

theorem mirrored_repaintTimes (times : Nat) : Mirrored (repaintTimes times) := by
  induction times with
  | zero => exact mirrored_pure ()
  | succ times ih =>
    apply Mirrored.bind mirrored_repaint
    intro _
    exact ih

theorem mirrored_setOverlay (overlay : Option Overlay) : Mirrored (setOverlay overlay) := by
  have installs : Mirrored (modifyCanvas fun canvas => { canvas with overlay }) :=
    mirrored_modifyCanvas fun _ => ⟨rfl, rfl, rfl⟩
  cases overlay with
  | none => exact installs
  | some overlay =>
    apply mirrored_theCanvas
    intro s w h
    apply Mirrored.bind (mirrored_tellOverlay overlay _) ?_ s w h
    intro _
    exact installs

/-! Input. -/

theorem mirrored_postKey (action : KeyAction) (code : Int) : Mirrored (postKey action code) := by
  have record : ∀ canvas : Canvas, canvas.Agrees (canvas.recordKey action code) :=
    fun _ => ⟨rfl, rfl, rfl⟩
  apply Mirrored.bind (mirrored_modifyCanvas record)
  intro _
  apply mirrored_theCanvas
  intro s w h
  apply mirrored_postAll ?_ s w h
  intro kind mem
  unfold Canvas.keyEvents at mem
  split at mem
  · cases mem
  · cases List.mem_singleton.mp mem
    rfl

theorem mirrored_hostKey (action : KeyAction) (host : Int) : Mirrored (hostKey action host) := by
  apply mirrored_theCanvas
  intro s w h
  cases s.stage.canvas.hostKeys.convert? host with
  | none => exact mirrored_pure false s w h
  | some code =>
    cases s.stage.canvas.overlay with
    | none =>
      apply Mirrored.bind (mirrored_postKey action code) ?_ s w h
      intro _
      exact mirrored_pure true
    | some overlay =>
      apply Mirrored.bind (mirrored_tellOverlay overlay _) ?_ s w h
      intro _
      cases overlay.consumesKey code with
      | true => exact mirrored_pure true
      | false =>
        apply Mirrored.bind (mirrored_postKey action code)
        intro _
        exact mirrored_pure true

theorem mirrored_postPointer (action : PointerAction) (pointer : Int) (x y : Single) :
    Mirrored (do Act.postAll ((← theCanvas).pointerEvents action pointer x y) : Act Unit) := by
  apply mirrored_theCanvas
  intro s w h
  apply mirrored_postAll ?_ s w h
  intro kind mem
  unfold Canvas.pointerEvents at mem
  split at mem
  · cases mem
  · cases List.mem_singleton.mp mem
    rfl

theorem mirrored_hostPointer (action : PointerAction) (pointer : Int) (x y : Single) :
    Mirrored (hostPointer action pointer x y) := by
  apply mirrored_theCanvas
  intro s w h
  cases s.stage.canvas.overlay with
  | none => exact mirrored_postPointer action pointer x y s w h
  | some overlay =>
    have asks : Mirrored (do
        tellOverlay overlay (.pointer action pointer x y)
        if !overlay.consumesPointer x then
          Act.postAll ((← theCanvas).pointerEvents action pointer x y) : Act Unit) := by
      apply Mirrored.bind (mirrored_tellOverlay overlay _)
      intro _
      cases overlay.consumesPointer x with
      | true => exact mirrored_pure ()
      | false => exact mirrored_postPointer action pointer x y
    cases action with
    | pressed | released =>
      by_cases first : pointer = 0
      · simp only [first, if_true] at asks ⊢
        apply Mirrored.bind (mirrored_tellOverlay overlay _) ?_ s w h
        intro _
        exact asks
      · simp only [first, if_false]
        exact asks s w h
    | dragged => exact asks s w h

/-! Game canvases. -/

theorem mirrored_modifyStage (f : Stage → Stage)
    (canvas : ∀ stage, (f stage).canvas = stage.canvas) :
    Mirrored (modify fun s => { s with stage := f s.stage } : Act Unit) := by
  apply mirrored_modify
  intro s w h
  exact ⟨h.canvas.trans (canvas s.stage).symm, h.queue, h.painting, h.plain⟩

theorem mirrored_setBackBuffer (image : Image) : Mirrored (setBackBuffer image) :=
  mirrored_modifyStage (fun stage => { stage with backBuffer := image }) fun _ => rfl

theorem mirrored_createGame (suppressKeys : Bool) : Mirrored (createGame suppressKeys) := by
  apply mirrored_theCanvas
  intro s w h
  apply mirrored_get ?_ s w h
  intro s' w' h'
  have wraps : Mirrored (do
      modifyCanvas fun canvas => { canvas with suppressGameKeys := suppressKeys }
      modify fun s' => { s' with stage := { s'.stage with
        staging := s'.stage.staging <|>
          some (.blank s.stage.canvas.layout.width s.stage.canvas.layout.height) } }
      return (← get).stage.backBuffer : Act Image) := by
    apply Mirrored.bind
    · apply mirrored_modifyCanvas
      intro canvas
      exact ⟨rfl, rfl, rfl⟩
    · intro _
      apply Mirrored.bind
      · let wrap (stage : Stage) : Stage := { stage with
          staging := stage.staging <|>
            some (.blank s.stage.canvas.layout.width s.stage.canvas.layout.height) }
        apply mirrored_modifyStage wrap
        intro stage
        rfl
      · intro _
        apply mirrored_get
        intro s w h
        exact mirrored_pure _ s w h
  dsimp only
  split
  · apply Mirrored.bind (mirrored_setBackBuffer _) ?_ s' w' h'
    intro _
    exact wraps
  · exact wraps s' w' h'

theorem mirrored_drawGame (drawings : List Drawing) : Mirrored (drawGame drawings) := by
  apply mirrored_get
  intro s w h
  apply Mirrored.bind (mirrored_setBackBuffer _) ?_ s w h
  intro _
  exact mirrored_pure _

theorem mirrored_flushGame : Mirrored flushGame := by
  apply mirrored_get
  intro s w h
  dsimp only
  cases s.stage.staging with
  | none => exact mirrored_pure () s w h
  | some staging =>
    dsimp only
    generalize (if Frame.fits staging s.stage.backBuffer.width s.stage.backBuffer.height = true
      then s.stage.backBuffer.copyTo staging else s.stage.backBuffer) = copied
    apply Mirrored.bind ?_ ?_ s w h
    · apply mirrored_modifyStage fun stage => { stage with staging := some copied }
      intro stage
      rfl
    · intro _
      exact mirrored_flushBuffer copied

theorem mirrored_paintGame (image : Image) (drawings : List Drawing) :
    Mirrored (paintGame image drawings) := by
  apply mirrored_get
  intro s w h
  dsimp only
  split
  · exact mirrored_pure _ s w h
  · exact mirrored_throw _ s w h

/-! Requests that are more than one move. -/

theorem mirrored_surfaceChanged (width height : Int) :
    Mirrored (surfaceChanged width height) := by
  intro s w h
  let v := w.post .surface (.displayResized width height)
  have begins : w.Leads (v.toDo .repaint) := .one (.surfaceChanged width height) rfl
  have ends : (v.toDo .repaint).Leads (v.post .surface .paint) := World.leads_toDo _ rfl
  refine ⟨_, (begins.trans ends).goes_post ?_ ?_ ?_, (h.post .surface rfl).post .surface rfl⟩
  · exact w.turn_post ..
  · exact w.runs_post ..
  · exact w.calls_post ..

theorem run_tellOverlay (overlay : Overlay) (event : OverlayCall) (s : Session Stage) :
    ∃ notes, (tellOverlay overlay event).run.run s = (.ok (), { s with notes }) := by
  unfold tellOverlay
  induction overlay.traced event generalizing s with
  | nil => exact ⟨s.notes, rfl⟩
  | cons event events ih =>
    obtain ⟨notes, ran⟩ := ih { s with notes := s.notes.push (.overlay event) }
    exact ⟨notes, ran⟩

/-- A layout that is computed anew is told to the overlay only. -/
theorem run_updateSize (free : s.painting = false) {changed : Bool} {canvas : Canvas}
    (computed : s.stage.canvas.updateSize = .ok (changed, canvas)) :
    ∃ notes, updateSize.run.run s =
      (.ok changed, { s with stage := { s.stage with canvas }, notes }) := by
  simp only [updateSize, run_bind, run_get, free, Bool.false_eq_true, if_false, run_theCanvas,
    run_liftM, computed, run_setCanvas]
  cases canvas.overlay with
  | none => exact ⟨s.notes, rfl⟩
  | some overlay =>
    obtain ⟨notes, told⟩ := run_tellOverlay overlay
      (.resize canvas.layout.screen canvas.layout.placement)
      { s with stage := { s.stage with canvas }, painting := false }
    exists notes
    simp only [run_bind, told]
    rfl

theorem run_updateSize_error (free : s.painting = false) {fault : Fault}
    (failed : s.stage.canvas.updateSize = .error fault) :
    updateSize.run.run s = (.error fault, s) := by
  simp only [updateSize, run_bind, run_get, free, Bool.false_eq_true, if_false, run_theCanvas,
    run_liftM, failed]

/-- What is left of a change to full screen mode outside of a paint. -/
def announceSize : Act Unit := do
  let _ ← updateSize
  let l := (← theCanvas).layout
  let _ ← Act.post (.sizeChanged l.width l.height)

theorem run_setFullscreen (free : s.painting = false) {fullscreen : Bool}
    (new : s.stage.canvas.settings.fullscreen ≠ fullscreen) :
    (setFullscreen fullscreen).run.run s = announceSize.run.run
      { s with stage := { s.stage with canvas := s.stage.canvas.setFullscreen fullscreen } } := by
  simp only [setFullscreen, announceSize, run_bind, run_theCanvas, if_neg new, run_setCanvas,
    run_get]
  rw [if_neg (Bool.eq_false_iff.mp free)]
  simp only [run_bind, run_theCanvas]

/-- The layout is computed anew, and then its size is posted. -/
theorem tracks_announceSize {v : World Job} (leads : w.Leads (v.toDo .recompute))
    (turn : v.turn = w.turn) (runs : v.runs = w.runs) (calls : v.calls = w.calls)
    (h : Mirrors s v) (free : s.painting = false) : Tracks announceSize s w := by
  have open' : v.locked = false := h.painting.trans free
  unfold Tracks announceSize
  rw [run_bind]
  cases computed : s.stage.canvas.updateSize with
  | error fault =>
    have fails : v.perform .recompute = some (v.note (.faulted none)) := by
      simp only [World.perform, open', Bool.false_eq_true, if_false, World.recompute, h.canvas,
        computed]
    refine ⟨_, ⟨leads.trans (World.leads_toDo _ fails), turn, runs, calls⟩, ?_⟩
    rw [run_updateSize_error free computed]
    exact ⟨h.canvas, h.queue, h.painting, h.plain⟩
  | ok pair =>
    obtain ⟨resized, canvas⟩ := pair
    let u : World Job := { v with canvas }
    have follows : v.perform .recompute = some (u.toDo .announce) := by
      simp only [World.perform, open', Bool.false_eq_true, if_false, World.recompute, h.canvas,
        computed]
      rfl
    have announces : (u.toDo .announce).Leads (u.toDo (.notify u.canvas.layout.size)) :=
      World.leads_toDo _ rfl
    have ends := World.leads_toDo (w := u) (.notify u.canvas.layout.size) rfl
    obtain ⟨notes, told⟩ := run_updateSize free computed
    have shown : Mirrors { s with stage := { s.stage with canvas }, notes } u :=
      ⟨rfl, h.queue, h.painting, h.plain⟩
    have posts := leads.trans ((World.leads_toDo _ follows).trans (announces.trans ends))
    refine ⟨_, posts.goes_post turn runs calls, ?_⟩
    rw [told]
    exact shown.post .fullscreen rfl

theorem tracks_fullscreen (h : Mirrors s w) (free : s.painting = false) {fullscreen : Bool}
    (new : s.stage.canvas.settings.fullscreen ≠ fullscreen) :
    Tracks (setFullscreen fullscreen) s w := by
  let v : World Job := { w with canvas := w.canvas.setFullscreen fullscreen }
  have begins : w.Leads (v.toDo .recompute) := by
    apply World.Leads.one (.setFullscreen fullscreen false)
    simp only [World.step, Bool.false_and, Bool.false_eq_true, if_false, World.setFullscreen,
      h.canvas, if_neg new]
    rw [← h.canvas]
  unfold Tracks
  rw [run_setFullscreen free new]
  exact tracks_announceSize begins rfl rfl rfl (h.adjust (·.setFullscreen fullscreen)) free

/-- Inside a paint the size of the display is posted once more, so that the layout follows later. -/
theorem tracks_fullscreen_painting (h : Mirrors s w) (inside : s.painting = true)
    {fullscreen : Bool} (new : s.stage.canvas.settings.fullscreen ≠ fullscreen) :
    Tracks (setFullscreen fullscreen) s w := by
  let changed : Session Stage :=
    { s with stage := { s.stage with canvas := s.stage.canvas.setFullscreen fullscreen } }
  let v : World Job := { w with canvas := w.canvas.setFullscreen fullscreen }
  have mirrors : Mirrors changed v := h.adjust (·.setFullscreen fullscreen)
  have locked : w.locked = true := h.painting.trans inside
  have begins : w.Leads (v.toDo .defer) := by
    apply World.Leads.one (.setFullscreen fullscreen true)
    simp only [World.step, locked, World.setFullscreen, h.canvas, if_neg new]
    rw [← h.canvas]
    rfl
  have reads : (v.toDo .defer).Leads (v.toDo (.repost v.canvas.layout.displaySize)) :=
    World.leads_toDo _ rfl
  have ends := World.leads_toDo (w := v) (.repost v.canvas.layout.displaySize) rfl
  have ran : ((setFullscreen fullscreen).run.run s).2 = { changed with
      queue := (s.queue.post (.displayResized s.stage.canvas.layout.displayWidth
        s.stage.canvas.layout.displayHeight)).2 } := by
    simp only [setFullscreen, run_bind, run_theCanvas, if_neg new, run_setCanvas, run_get]
    rw [if_pos inside]
    rfl
  have leads := begins.trans (reads.trans ends)
  refine ⟨_, leads.goes_post rfl rfl rfl, ?_⟩
  have layout : v.canvas.layout = changed.stage.canvas.layout :=
    congrArg Canvas.layout mirrors.canvas
  rw [ran, layout]
  exact mirrors.post .fullscreen rfl

theorem mirrored_setFullscreen (fullscreen : Bool) : Mirrored (setFullscreen fullscreen) := by
  intro s w h
  by_cases same : s.stage.canvas.settings.fullscreen = fullscreen
  · have ran : (setFullscreen fullscreen).run.run s = (.ok (), s) := by
      simp only [setFullscreen, run_bind, run_theCanvas, if_pos same]
      rfl
    refine ⟨w, .refl w, ?_⟩
    rw [ran]
    exact h
  · cases painting : s.painting with
    | true => exact tracks_fullscreen_painting h painting same
    | false => exact tracks_fullscreen h painting same

/-! All requests. -/

theorem mirrored_done {act : Act Unit} (h : Mirrored act) : Mirrored (done act) := by
  apply h.bind
  intro _
  exact mirrored_pure _

theorem mirrored_reads {f : Session Stage → Answer} :
    Mirrored (do return f (← get) : Act Answer) := by
  intro s w h
  exact ⟨w, .refl w, h⟩

theorem mirrored_snapshot : Mirrored snapshot := by
  apply mirrored_get
  intro s w h
  cases s.painting with
  | true => exact mirrored_pure none s w h
  | false =>
    apply mirrored_theCanvas ?_ s w h
    intro s w h
    refine ⟨w, .refl w, ?_⟩
    simp only [run_bind, run_liftM]
    cases s.stage.canvas.snapshot <;> exact h

theorem mirrored_presentedFrames : Mirrored presentedFrames := by
  apply mirrored_get
  intro s w h
  cases s.painting with
  | true => exact mirrored_pure 0 s w h
  | false => exact ⟨w, .refl w, h⟩

theorem mirrored_fps : Mirrored fps := by
  apply mirrored_get
  intro s w h
  cases s.painting with
  | true => exact mirrored_pure none s w h
  | false => exact ⟨w, .refl w, h⟩

theorem mirrored_setScale (scaleToFit keepAspectRatio : Bool) (scaleRatio : Int) :
    Mirrored (setScale scaleToFit keepAspectRatio scaleRatio) := by
  apply mirrored_theCanvas
  intro s w h
  unfold Canvas.setScale
  cases validateScaleRatio scaleRatio with
  | error error => exact mirrored_pure _ s w h
  | ok _ =>
    let scale (canvas : Canvas) : Canvas := { canvas with
      settings := { canvas.settings with scaleToFit, keepAspectRatio, scaleRatio } }
    exact ⟨_, w.goes_adjust ⟨scale, fun _ => ⟨rfl, rfl, rfl⟩⟩, h.adjust scale⟩

theorem mirrored_perform (calm : Calm runner) (request : Request) :
    Mirrored (perform runner request) := by
  cases request with
  | repaint times => exact mirrored_done (mirrored_repaintTimes times)
  | repaintRegion region => exact mirrored_done mirrored_repaint
  | serviceRepaints => exact mirrored_done (mirrored_serviceRepaints calm)
  | compose => exact mirrored_done mirrored_compose
  | flushBuffer image => exact mirrored_done (mirrored_flushBuffer image)
  | snapshot =>
    apply mirrored_snapshot.bind
    intro image
    exact mirrored_pure _
  | presented =>
    apply mirrored_presentedFrames.bind
    intro frames
    exact mirrored_reads (f := fun s => .presented frames s.stage.canvas.frame.display.shown)
  | fps =>
    apply mirrored_fps.bind
    intro rate
    exact mirrored_pure _
  | key action code => exact mirrored_done (mirrored_postKey action code)
  | hostKeyDown host repeated =>
    apply (mirrored_hostKey _ host).bind
    intro bound
    exact mirrored_pure _
  | hostKeyUp host =>
    apply (mirrored_hostKey _ host).bind
    intro bound
    exact mirrored_pure _
  | pointer action pointer x y => exact mirrored_done (mirrored_hostPointer action pointer x y)
  | surfaceCreated => exact mirrored_done (mirrored_postAll (by simp [EventKind.plain]))
  | surfaceDestroyed => exact mirrored_done (mirrored_postAll (by simp [EventKind.plain]))
  | surfaceChanged width height => exact mirrored_done (mirrored_surfaceChanged width height)
  | setFullscreen fullscreen => exact mirrored_done (mirrored_setFullscreen fullscreen)
  | setScale fit aspect ratio => exact mirrored_setScale fit aspect ratio
  | setFpsLimit fpsLimit =>
    apply Mirrored.bind
    · apply mirrored_modifyCanvas
      intro canvas
      exact ⟨rfl, rfl, rfl⟩
    · intro _
      exact mirrored_reads (f := fun s => .number s.stage.canvas.limiter.fpsLimit)
  | setOverlay overlay => exact mirrored_done (mirrored_setOverlay overlay)
  | createGame suppressKeys =>
    apply (mirrored_createGame suppressKeys).bind
    intro buffer
    exact mirrored_pure _
  | drawGame drawings =>
    apply (mirrored_drawGame drawings).bind
    intro answers
    exact mirrored_pure _
  | flushGame => exact mirrored_done mirrored_flushGame
  | flushGameRegion region => exact mirrored_done mirrored_flushGame
  | paintGame image drawings =>
    apply (mirrored_paintGame image drawings).bind
    intro image
    exact mirrored_pure _
  | setVirtualSize | setFilter | setTouchInput | setHardwareAcceleration | setKeyLayout |
      setHostKeys | setBackground =>
    apply mirrored_done
    apply mirrored_modifyCanvas
    intro canvas
    exact ⟨rfl, rfl, rfl⟩
  | lastFrame | isPainting | state | heldKeys | gameAction | keyCode | keyName | debugText |
      gameKeys =>
    intro s w h
    exact ⟨w, .refl w, h⟩

/-! Events that are handled in turn. -/

/-- The handling of an event has come to its end. -/
structure Handled (w w' : World Job) (event : Event Job) (s' : Session Stage) : Prop where
  leads : w.Leads w'
  mirrors : Mirrors s' w'
  turn : w'.turn = some ⟨event, .paint .ended⟩ ∨ w'.turn = some ⟨event, .leave⟩
  runs : w'.runs = w.runs
  calls : w'.calls = w.calls

theorem run_then {α β : Type} (act : Act α) (b : β) (s : Session Stage) :
    ((act >>= fun _ => pure b).run.run s).2 = (act.run.run s).2 := by
  rw [run_bind]
  cases act.run.run s with
  | mk result s' => cases result <;> rfl

theorem locked_toPhase (turn : Turn Job) {phase : Phase} (free : w.locked = false)
    (outside : phase ≠ .paint .inside) : (w.toPhase turn phase).locked = false := by
  simp only [World.locked, Bool.or_eq_false_iff] at free
  simp only [World.locked, World.toPhase, Option.any_some, free.2, Bool.or_false]
  exact beq_eq_false_iff_ne.mpr outside

variable {event : Event Job} {v : World Job}

theorem handled_of_leave {α : Type} {act : Act α}
    (leads : w.Leads (v.toPhase ⟨event, .start⟩ .leave)) (runs : v.runs = w.runs)
    (calls : v.calls = w.calls) (h : Mirrors s v) (free : s.painting = false)
    (mirrored : Mirrored act) : ∃ w', Handled w w' event (act.run.run s).2 := by
  have leaves : Mirrors s (v.toPhase ⟨event, .start⟩ .leave) := by
    refine ⟨h.canvas, h.queue, ?_, h.plain⟩
    rw [locked_toPhase _ (h.painting.trans free) (by simp), free]
  obtain ⟨w', goes, mirrors⟩ := mirrored s _ leaves
  exact ⟨w', leads.trans goes.leads, mirrors, .inr goes.turn, goes.runs.trans runs,
    goes.calls.trans calls⟩

theorem leads_start (turning : w.turn = some ⟨event, .start⟩)
    (starts : w.start ⟨event, .start⟩ = v) : w.Leads v := by
  apply World.Leads.one (.handle true 0)
  rw [← starts]
  simp only [World.step, turning]
  rfl

theorem leads_handle {turn : Turn Job} (turning : w.turn = some turn)
    (made : w.handle turn true 0 = some v) : w.Leads v := by
  apply World.Leads.one (.handle true 0)
  simp only [World.step, turning, Option.bind_some]
  exact made

/-- What is left of a resize when the size of the display is in the settings: a new layout, of which
the application hears. -/
def followSize (runner : Runner Stage) : Act Unit := do
  let changed ← updateSize
  let canvas ← theCanvas
  setCanvas { canvas with sizeReported := true }
  if changed || !canvas.sizeReported then
    let l := canvas.layout
    call runner .sizeChanged (.sizeChanged l.width l.height) none

theorem run_displayResized (width height : Int) (s : Session Stage) :
    (displayResized runner width height).run.run s =
      (followSize runner).run.run
        { s with stage := { s.stage with canvas := s.stage.canvas.setDisplaySize width height } } :=
  rfl

theorem handled_followSize_error (leads : w.Leads (v.toPhase ⟨event, .start⟩ .recompute))
    (runs : v.runs = w.runs) (calls : v.calls = w.calls) (h : Mirrors s v)
    (free : s.painting = false) {fault : Fault}
    (failed : s.stage.canvas.updateSize = .error fault) :
    ∃ w', Handled w w' event ((followSize runner).run.run s).2 := by
  have waits : (v.toPhase ⟨event, .start⟩ .recompute).locked = false :=
    locked_toPhase _ (h.painting.trans free) (by simp)
  have failed' : v.canvas.updateSize = .error fault := by rw [h.canvas, failed]
  have gives := leads_handle rfl (World.handle_recompute_error event waits failed')
  unfold followSize
  rw [run_bind, run_updateSize_error free failed]
  exact handled_of_leave (leads.trans gives) runs calls
    ⟨h.canvas, h.queue, waits.trans free.symm, h.plain⟩ free (mirrored_pure ())

theorem handled_followSize (calm : Calm runner)
    (leads : w.Leads (v.toPhase ⟨event, .start⟩ .recompute)) (runs : v.runs = w.runs)
    (calls : v.calls = w.calls) (h : Mirrors s v) (free : s.painting = false) {changed : Bool}
    {canvas : Canvas} (computed : s.stage.canvas.updateSize = .ok (changed, canvas)) :
    ∃ w', Handled w w' event ((followSize runner).run.run s).2 := by
  have waits : (v.toPhase ⟨event, .start⟩ .recompute).locked = false :=
    locked_toPhase _ (h.painting.trans free) (by simp)
  have computed' : v.canvas.updateSize = .ok (changed, canvas) := by rw [h.canvas, computed]
  have follows := leads_handle rfl (World.handle_recompute event waits computed')
  let u : World Job := { v with
    canvas := { canvas with sizeReported := true }, log := .resized event.id :: v.log }
  let last : Phase :=
    if changed || !canvas.sizeReported then .tell canvas.layout.size else .leave
  have settles : w.Leads (u.toPhase ⟨event, .start⟩ last) := by
    apply leads.trans
    apply follows.trans
    exact leads_handle rfl rfl
  obtain ⟨notes, told⟩ := run_updateSize free computed
  unfold followSize
  rw [run_bind, told]
  simp only [run_bind, run_theCanvas, run_setCanvas]
  cases tells : changed || !canvas.sizeReported with
  | true =>
    have last : last = .tell canvas.layout.size := by simp [last, tells]
    rw [last] at settles
    let given : World Job :=
      u.note (.told .displayResized canvas.layout.size canvas.layout.size)
    have gives : (u.toPhase ⟨event, .start⟩ (.tell canvas.layout.size)).Leads
        (given.toPhase ⟨event, .start⟩ .leave) := leads_handle rfl rfl
    exact handled_of_leave (settles.trans gives) runs calls
      ⟨rfl, h.queue, h.painting, h.plain⟩ free (mirrored_call calm _ _ none)
  | false =>
    have last : last = .leave := by simp [last, tells]
    rw [last] at settles
    exact handled_of_leave settles runs calls
      ⟨rfl, h.queue, h.painting, h.plain⟩ free (mirrored_pure ())

/-- A resize is followed by a new layout, unless there is none. -/
theorem handled_displayResized (calm : Calm runner) {width height : Int} (h : Mirrors s w)
    (free : s.painting = false) (turning : w.turn = some ⟨event, .start⟩)
    (kind : event.kind = .displayResized width height) :
    ∃ w', Handled w w' event ((displayResized runner width height).run.run s).2 := by
  have mirrors := h.adjust (·.setDisplaySize width height)
  have begins : w.Leads (World.toPhase { w with canvas := w.canvas.setDisplaySize width height }
      ⟨event, .start⟩ .recompute) := by
    apply leads_start turning
    simp only [World.start, kind]
  rw [run_displayResized]
  cases computed : (s.stage.canvas.setDisplaySize width height).updateSize with
  | error fault => exact handled_followSize_error begins rfl rfl mirrors free computed
  | ok pair => exact handled_followSize calm begins rfl rfl mirrors free computed

theorem handled_paint (calm : Calm runner) (h : Mirrors s w)
    (free : s.painting = false) (turning : w.turn = some ⟨event, .start⟩)
    (kind : event.kind = .paint) :
    ∃ w', Handled w w' event ((paintCycle runner).run.run s).2 := by
  have begins : w.Leads ((Painter.inTurn event).put .look w) := by
    apply leads_start turning
    simp only [World.start, kind]
    rfl
  have looks : Mirrors s ((Painter.inTurn event).put .look w) := by
    refine ⟨h.canvas, h.queue, ?_, h.plain⟩
    have same : ((Painter.inTurn event).put .look w).locked = false :=
      locked_toPhase ⟨event, .start⟩ (h.painting.trans free) (by simp)
    rw [same, free]
  obtain ⟨w', leads, mirrors, -, runs, calls⟩ := leads_paintCycle calm looks free
  exact ⟨_, begins.trans leads, mirrors, .inl rfl, runs, calls⟩

theorem handled_act {act : Act Unit} (h : Mirrors s v)
    (free : s.painting = false) (mirrored : Mirrored act)
    (turning : w.turn = some ⟨event, .start⟩) (runs : v.runs = w.runs) (calls : v.calls = w.calls)
    (starts : w.start ⟨event, .start⟩ = v.toPhase ⟨event, .start⟩ .leave) :
    ∃ w', Handled w w' event ((do act; return none : Act (Option Failure)).run.run s).2 := by
  rw [run_then]
  exact handled_of_leave (leads_start turning starts) runs calls h free mirrored

theorem handled (calm : Calm runner) (plain : event.kind.plain = true)
    (h : Mirrors s w) (free : s.painting = false) (turning : w.turn = some ⟨event, .start⟩) :
    ∃ w', Handled w w' event ((handle runner event).run.run s).2 := by
  unfold handle
  cases kind : event.kind with
  | paint =>
    dsimp only
    rw [run_then]
    exact handled_paint calm h free turning kind
  | displayResized width height =>
    dsimp only
    rw [run_then]
    exact handled_displayResized calm h free turning kind
  | key action code =>
    apply handled_act h free (mirrored_call calm _ _ _) turning rfl rfl
    simp only [World.start, kind]
  | pointer action pointer x y =>
    apply handled_act h free (mirrored_call calm _ _ _) turning rfl rfl
    simp only [World.start, kind]
  | task job =>
    rw [kind] at plain
    apply handled_act h free (mirrored_runJob calm plain) turning rfl rfl
    simp only [World.start, kind]
  | sizeChanged width height =>
    have told : Mirrors s (w.note (.told .sizeChanged ⟨width, height⟩ w.canvas.layout.size)) :=
      ⟨h.canvas, h.queue, h.painting, h.plain⟩
    apply handled_act told free (mirrored_call calm _ _ _) turning rfl rfl
    simp only [World.start, kind]
  | showNotify =>
    have shown := h.adjust fun canvas => { canvas with shown := true }
    have told : Mirrored (call runner .showNotify .showNotify none) := mirrored_call calm _ _ _
    apply handled_act shown free told turning rfl rfl
    simp only [World.start, kind]
  | hideNotify =>
    have hidden := h.adjust fun canvas => { canvas with shown := false }
    have told : Mirrored (call runner .hideNotify .hideNotify none) := mirrored_call calm _ _ _
    apply handled_act hidden free told turning rfl rfl
    simp only [World.start, kind]

theorem leads_finish
    (turn : w.turn = some ⟨event, .paint .ended⟩ ∨ w.turn = some ⟨event, .leave⟩) :
    w.Leads (w.finish event) := by
  rcases turn with turning | turning
  · exact leads_handle turning rfl
  · exact leads_handle turning rfl

theorem locked_finish
    (turn : w.turn = some ⟨event, .paint .ended⟩ ∨ w.turn = some ⟨event, .leave⟩) :
    (w.finish event).locked = w.locked := by
  rcases turn with turning | turning
  · simp only [World.locked, World.finish, turning]
    rfl
  · simp only [World.locked, World.finish, turning]
    rfl

theorem plain_next {event : Event Job} {queue : Queue Job} (plain : s.Plain)
    (next : s.queue.next? = some (event, queue)) :
    event.kind.plain = true ∧ Session.Plain { s with queue } := by
  obtain ⟨-, rest, events, rfl⟩ := Queue.next?_eq_some next
  have all : ∀ other ∈ event :: rest, other.kind.plain = true := by
    intro other mem
    exact plain.events other (events ▸ mem)
  refine ⟨all event List.mem_cons_self, ?_, plain.rules, plain.script, plain.dispatch⟩
  intro other mem
  exact all other (List.mem_cons_of_mem _ mem)

/-- The thread that takes events takes one, handles it and is done with it. -/
theorem tracks_processNext (calm : Calm runner) (h : Mirrors s w) (free : s.painting = false)
    (idle : w.turn = none) : Tracks (Act.processNext (handle runner)) s w := by
  cases next : s.queue.next? with
  | none =>
    refine ⟨w, .refl w, ?_⟩
    rw [Act.run_processNext_of_none next]
    exact h
  | some pair =>
    obtain ⟨event, queue⟩ := pair
    obtain ⟨plain, rest⟩ := plain_next h.plain next
    let v : World Job := { w with
      queue, turn := some ⟨event, .start⟩, log := .began event.id .inTurn :: w.log }
    -- Three runs of moves: the event is taken, it is handled, it is over.
    have begins : w.step .next = some v := by
      simp only [World.step, idle, Option.isSome_none, Bool.false_eq_true, if_false, h.queue, next]
      rfl
    have waits : { w with queue, log := .began event.id .inTurn :: w.log }.locked = false :=
      h.painting.trans free
    have open' : v.locked = false := locked_toPhase ⟨event, .start⟩ waits (by simp)
    have begun : Mirrors { s with queue } v := ⟨h.canvas, rfl, open'.trans free.symm, rest⟩
    obtain ⟨w', handled⟩ := handled calm plain begun free rfl
    cases ran : (handle runner event).run.run { s with queue } with
    | mk result s' =>
      have mirrors := handled.mirrors
      rw [ran] at mirrors
      have ends : w'.Leads (w'.finish event) := leads_finish handled.turn
      refine ⟨w'.finish event, ⟨?_, idle.symm, handled.runs, handled.calls⟩, ?_⟩
      · exact (World.Leads.one _ begins).trans (handled.leads.trans ends)
      · obtain ⟨logs, finished⟩ := Act.run_finishEvent event result s'
        rw [Act.run_processNext next ran, finished]
        refine ⟨mirrors.canvas, congrArg (·.finish event.tag) mirrors.queue, ?_, ?_⟩
        · exact (locked_finish handled.turn).trans mirrors.painting
        · exact mirrors.plain

end Stage

/-- Such steps of a list leave it to the list itself to take events out of the queue. -/
def Step.orderly : Step → Bool
  | .process => true
  | .drain _ => true
  | step => step.plain

namespace Host

variable {s : Session Stage} {w : World Job} {runner : Runner Stage}

theorem run_answering (act : Stage.Act Answer) (s : Session Stage) :
    ∃ notes logs, ((liftM (answering act) : Stage.Act StepAnswer).run.run s).2 =
      { (act.run.run { s with notes := #[] }).2 with notes, logs } :=
  ⟨_, _, rfl⟩

theorem tracks_answering {act : Stage.Act Answer} (h : Tracks act { s with notes := #[] } w) :
    Tracks (liftM (answering act) : Stage.Act StepAnswer) s w := by
  obtain ⟨w', goes, mirrors⟩ := h
  obtain ⟨notes, logs, ran⟩ := run_answering act s
  refine ⟨w', goes, ?_⟩
  rw [ran]
  exact mirrors.record notes logs

theorem mirrors_fresh (h : Mirrors s w) : Mirrors { s with notes := #[] } w :=
  h.record #[] s.logs

theorem goes_remove (w : World Job) (p : Event Job → Bool) :
    w.Goes (w.drop (w.queue.events.filter p) (w.queue.remove p).2) where
  leads := .one (.remove p) rfl
  turn := rfl
  runs := rfl
  calls := rfl

theorem plain_remove (plain : s.Plain) (p : Event Job → Bool) :
    Session.Plain { s with queue := (s.queue.remove p).2 } :=
  plain_fewer plain fun _ => Queue.mem_of_mem_remove

theorem mirrored_interpret (calm : Calm runner) {step : Step} (plain : step.plain = true) :
    Mirrored (Host.stage.interpret runner step) := by
  cases step with
  | process | drain | flush | dispatch => cases plain
  | post kind =>
    apply Mirrored.bind (mirrored_post plain)
    intro outcome
    exact mirrored_pure _
  | remove selection =>
    intro s w h
    refine ⟨_, goes_remove w selection.selects, h.canvas, ?_, h.painting, plain_remove h.plain _⟩
    exact congrArg (fun q => (q.remove selection.selects).2) h.queue
  | counts | inspect =>
    intro s w h
    exact ⟨w, .refl w, h⟩
  | close =>
    apply mirrored_close.bind
    intro _
    exact mirrored_pure _
  | addRule rule =>
    intro s w h
    refine ⟨w, .refl w, h.canvas, h.queue, h.painting, ?_⟩
    refine ⟨h.plain.events, ?_, h.plain.script, h.plain.dispatch⟩
    intro other mem
    cases List.mem_append.mp mem with
    | inl old => exact h.plain.rules other old
    | inr new =>
      cases List.mem_singleton.mp new
      exact plain
  | setPaint script =>
    intro s w h
    refine ⟨w, .refl w, h.canvas, h.queue, h.painting, ?_⟩
    exact ⟨h.plain.events, h.plain.rules, plain, h.plain.dispatch⟩
  | perform body =>
    apply (mirrored_runBody calm plain).bind
    intro failure
    exact mirrored_pure _
  | ask request => exact Stage.mirrored_perform calm request

/-- The runner of a step, whose callbacks nest no deeper. -/
theorem calm_step (depth : Nat) (step : Step) (plain : step.plain = true) :
    Mirrored (liftM (Host.stage.step depth step) : Stage.Act StepAnswer) := by
  induction depth generalizing step with
  | zero =>
    intro s w h
    exact tracks_answering (mirrored_throw _ _ w (mirrors_fresh h))
  | succ depth ih =>
    let inner : Step → StateM (Session Stage) StepAnswer := Host.stage.step depth
    have calm : Calm ⟨inner, Host.stage.hold ⟨inner, fun _ => return⟩⟩ := ih
    intro s w h
    exact tracks_answering (mirrored_interpret calm plain _ w (mirrors_fresh h))

theorem tracks_drain (calm : Calm runner) (limit : Nat) (h : Mirrors s w)
    (free : s.painting = false) (idle : w.turn = none) :
    Tracks (Act.drain (Stage.handle runner) limit) s w := by
  induction limit generalizing s w with
  | zero => exact mirrored_pure 0 s w h
  | succ limit ih =>
    obtain ⟨v, goes, mirrors⟩ := Stage.tracks_processNext calm h free idle
    unfold Tracks Act.drain
    rw [run_bind]
    cases ran : (Act.processNext (Stage.handle runner)).run.run s with
    | mk result s' =>
      rw [ran] at mirrors
      cases result with
      | error fault => exact ⟨v, goes, mirrors⟩
      | ok more =>
        cases more with
        | false => exact ⟨v, goes, mirrors⟩
        | true =>
          have free' : s'.painting = false := by
            rw [← mirrors.painting, goes.locked, h.painting, free]
          have rest := (ih mirrors free' (goes.turn.trans idle)).bind
            fun count => mirrored_pure (count + 1)
          obtain ⟨w', goes', mirrors'⟩ := rest
          exact ⟨w', goes.trans goes', mirrors'⟩

/-- Each step of a session without nested dispatches is a run of moves. -/
theorem tracks_step (depth : Nat) {step : Step} (orderly : step.orderly = true)
    (h : Mirrors s w) (free : s.painting = false) (idle : w.turn = none) :
    Tracks (liftM (Host.stage.step depth step) : Stage.Act StepAnswer) s w := by
  cases depth with
  | zero => exact tracks_answering (mirrored_throw _ _ w (mirrors_fresh h))
  | succ depth =>
    let inner : Step → StateM (Session Stage) StepAnswer := Host.stage.step depth
    have calm : Calm ⟨inner, Host.stage.hold ⟨inner, fun _ => return⟩⟩ := calm_step depth
    apply tracks_answering
    have h := mirrors_fresh h
    -- Outside of any event, a step may also take events: no turn is under way then.
    cases step with
    | process =>
      apply Tracks.get
      dsimp only
      split
      · exact mirrored_pure _ _ w h
      · exact (Stage.tracks_processNext calm h free idle).bind fun more => mirrored_pure _
    | drain limit =>
      exact (tracks_drain calm limit h free idle).bind fun count => mirrored_pure _
    | post | remove | flush | counts | inspect | close | addRule | setPaint | perform | dispatch |
        ask =>
      exact mirrored_interpret calm orderly _ w h

theorem goes_steps (depth : Nat) {steps : List Step}
    (orderly : ∀ step ∈ steps, step.orderly = true) (h : Mirrors s w) (free : w.locked = false)
    (idle : w.turn = none) :
    ∃ w', w.Goes w' ∧ Mirrors ((steps.mapM (Host.stage.step depth)).run s).2 w' := by
  induction steps generalizing s w with
  | nil => exact ⟨w, .refl w, h⟩
  | cons step steps ih =>
    have first := tracks_step depth (orderly step List.mem_cons_self) h
      (h.painting.symm.trans free) idle
    obtain ⟨v, goes, mirrors⟩ := first
    have later : ∀ step ∈ steps, step.orderly = true :=
      fun step mem => orderly step (List.mem_cons_of_mem _ mem)
    obtain ⟨w', goes', mirrors'⟩ :=
      ih later mirrors (goes.locked.trans free) (goes.turn.trans idle)
    refine ⟨w', goes.trans goes', ?_⟩
    rw [List.mapM_cons]
    exact mirrors'

theorem mirrors_start (stage : Stage) {rules : List Rule}
    (plain : ∀ rule ∈ rules, rule.plain = true) :
    Mirrors { stage, rules } { canvas := stage.canvas } where
  canvas := rfl
  queue := rfl
  painting := rfl
  plain := ⟨by simp, plain, rfl, rfl⟩

/-- A session is a run of a world that starts with its canvas, and each of its steps is over before
the next begins. -/
theorem session_reaches (stage : Stage) {rules : List Rule}
    (plain : ∀ rule ∈ rules, rule.plain = true) (depth : Nat) {steps : List Step}
    (orderly : ∀ step ∈ steps, step.orderly = true) :
    ∃ w, World.Reaches stage.canvas w ∧ w.turn = none ∧ w.runs = [] ∧ w.calls = [] ∧
      Mirrors ((steps.mapM (Host.stage.step depth)).run { stage, rules }).2 w := by
  obtain ⟨w, goes, mirrors⟩ := goes_steps depth orderly (mirrors_start stage plain) rfl rfl
  exact ⟨w, goes.leads.reaches .start, goes.turn, goes.runs, goes.calls, mirrors⟩

end Host

namespace Demo

theorem frame_orderly (box : Box) : (frame box).all Step.orderly = true :=
  rfl

theorem steps_orderly (width height : Int) (left : Nat) (box : Box) :
    (steps width height left box).all Step.orderly = true := by
  induction left generalizing box with
  | zero => rfl
  | succ left ih =>
    simp only [steps]
    split
    · simp only [List.all_append, frame_orderly, ih, Bool.and_true]
      rfl
    · simp only [List.all_append, frame_orderly, ih, Bool.and_true]

/-- The demonstration is such a session. -/
theorem reaches (stage : Stage) (width height : Int) (box : Box) :
    ∃ w, World.Reaches stage.canvas w ∧ w.turn = none ∧ w.runs = [] ∧ w.calls = [] ∧
      Mirrors (((opening box ++ steps width height frames box).mapM
        (Host.stage.step Host.depthLimit)).run { stage }).2 w := by
  apply Host.session_reaches stage (by simp)
  intro step mem
  have orderly : (opening box ++ steps width height frames box).all Step.orderly = true := by
    simp only [List.all_append, steps_orderly, Bool.and_true]
    rfl
  exact List.all_eq_true.mp orderly step mem

end Demo

end Handset
