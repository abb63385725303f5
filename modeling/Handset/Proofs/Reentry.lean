import Handset.Proofs.CanvasSessions

/-! What an application asks of its canvas while it paints. Its thread has the images in hand: a
call that took them again, or that waited for the paint to be over, would never come back. -/

namespace Handset

/-- What posts make of a queue. -/
def Queue.postAll {Work : Type} (q : Queue Work) (kinds : List (EventKind Work)) : Queue Work :=
  kinds.foldl (fun q kind => (q.post kind).2) q

/-- Not for a game canvas only. -/
def Request.ofCanvas : Request → Bool
  | .createGame _ => false
  | .drawGame _ => false
  | .flushGame => false
  | .flushGameRegion _ => false
  | .gameKeys => false
  | .paintGame .. => false
  | _ => true

/-- A call of a canvas: what may be asked of it, work for the thread that handles events, or an end
of all waiting for a frame. -/
inductive CanvasCall
  | ask (request : Request) (canvas : request.ofCanvas = true)
  | dispatch (job : Job)
  | interrupt

/-- What calls leave behind that are made from inside a paint: settings, keys, and events for
later. -/
structure Residue where
  settings : Settings
  keyLayout : KeyLayout
  hostKeys : HostKeys
  overlay : Option Overlay
  limiter : Limiter
  held : HeldKeys
  posted : List (EventKind Job) := []
  notes : Array Note
  logs : Array LogEntry
  clock : Nat

/-- What a thread gets to know only with the images in hand, or by waiting for a paint. The display
itself belongs to the host. -/
structure Veil where
  frame : Frame
  current : Option (EventTag × Nat)
  inlineRuns : List (EventTag × Nat)
  completed : Tally

namespace Residue

def leave (residue : Residue) (s : Session Stage) : Session Stage :=
  { s with
    stage := { s.stage with canvas := { s.stage.canvas with
      settings := residue.settings
      keyLayout := residue.keyLayout
      hostKeys := residue.hostKeys
      overlay := residue.overlay
      limiter := residue.limiter
      held := residue.held } }
    queue := s.queue.postAll residue.posted
    notes := residue.notes
    logs := residue.logs
    clock := residue.clock }

/-- Nothing changes. -/
def still (s : Session Stage) : Residue where
  settings := s.stage.canvas.settings
  keyLayout := s.stage.canvas.keyLayout
  hostKeys := s.stage.canvas.hostKeys
  overlay := s.stage.canvas.overlay
  limiter := s.stage.canvas.limiter
  held := s.stage.canvas.held
  notes := s.notes
  logs := s.logs
  clock := s.clock

def andThen (first second : Residue) : Residue :=
  { second with posted := first.posted ++ second.posted }

theorem leave_leave (first second : Residue) (s : Session Stage) :
    second.leave (first.leave s) = (first.andThen second).leave s := by
  simp only [leave, andThen, Queue.postAll, List.foldl_append]

end Residue

namespace Veil

def cover (veil : Veil) (s : Session Stage) : Session Stage :=
  { s with
    stage := { s.stage with canvas := { s.stage.canvas with
      frame := { veil.frame with display := s.stage.canvas.frame.display } } }
    queue := { s.queue with
      current := veil.current
      inlineRuns := veil.inlineRuns
      completed := veil.completed } }

/-- A post does not ask which runs are in progress. -/
theorem post_cover (veil : Veil) (s : Session Stage) (kind : EventKind Job) :
    (veil.cover s).queue.post kind = ((s.queue.post kind).1,
      (veil.cover { s with queue := (s.queue.post kind).2 }).queue) := by
  have shut : (veil.cover s).queue.closed = s.queue.closed := rfl
  have same : (veil.cover s).queue.coalesces kind.tag = s.queue.coalesces kind.tag := rfl
  unfold Queue.post
  rw [shut, same]
  by_cases closed : s.queue.closed = true
  · rw [if_pos closed, if_pos closed]
  · rw [if_neg closed, if_neg closed]
    by_cases coalesces : s.queue.coalesces kind.tag = true
    · rw [if_pos coalesces, if_pos coalesces]
    · rw [if_neg coalesces, if_neg coalesces]
      rfl

end Veil

namespace Stage

variable {α β : Type}

/-- From inside a paint the action comes to its end, and does the same whatever the images are and
whichever runs are in progress. -/
def ReentersAt (act : Act α) (s : Session Stage) : Prop :=
  ∃ a residue, act.run.run s = (.ok a, Residue.leave residue s) ∧
    ∀ veil : Veil, act.run.run (veil.cover s) = (.ok a, veil.cover (residue.leave s))

def Reenters (act : Act α) : Prop :=
  ∀ s, s.painting = true → ReentersAt act s

variable {act : Act α} {next : α → Act β} {s : Session Stage} {runner : Runner Stage}

theorem ReentersAt.bind (first : ReentersAt act s) (painting : s.painting = true)
    (rest : ∀ a, Reenters (next a)) : ReentersAt (act >>= next) s := by
  obtain ⟨a, residue, ran, blind⟩ := first
  obtain ⟨b, residue', ran', blind'⟩ := rest a (residue.leave s) painting
  rw [residue.leave_leave residue'] at ran' blind'
  refine ⟨b, residue.andThen residue', ?_, fun veil => ?_⟩
  · rw [run_bind, ran]
    exact ran'
  · rw [run_bind, blind veil]
    exact blind' veil

theorem Reenters.bind (first : Reenters act) (rest : ∀ a, Reenters (next a)) :
    Reenters (act >>= next) :=
  fun s painting => (first s painting).bind painting rest

theorem reenters_pure (a : α) : Reenters (pure a : Act α) :=
  fun s _ => ⟨a, .still s, rfl, fun _ => rfl⟩

/-- What a thread reads outside of the images. -/
theorem reenters_theCanvas {next : Canvas → Act α}
    (blind : ∀ (veil : Veil) s, next (veil.cover s).stage.canvas = next s.stage.canvas)
    (rest : ∀ canvas, Reenters (next canvas)) : Reenters (theCanvas >>= next) := by
  intro s painting
  obtain ⟨a, residue, ran, same⟩ := rest s.stage.canvas s painting
  refine ⟨a, residue, ran, fun veil => ?_⟩
  rw [run_bind, run_theCanvas]
  dsimp only
  rw [blind veil s]
  exact same veil

theorem reenters_modify {f : Session Stage → Session Stage}
    (leaves : ∀ s, ∃ residue : Residue, f s = residue.leave s)
    (blind : ∀ (veil : Veil) s, f (veil.cover s) = veil.cover (f s)) :
    Reenters (modify f : Act Unit) := by
  intro s _
  obtain ⟨residue, left⟩ := leaves s
  refine ⟨(), residue, ?_, fun veil => ?_⟩
  · rw [run_modify, left]
  · rw [run_modify, blind, left]

theorem reenters_note (entry : Note) : Reenters (Act.note entry : Act Unit) :=
  reenters_modify (fun s => ⟨{ Residue.still s with notes := s.notes.push entry }, rfl⟩)
    fun _ _ => rfl

theorem reenters_post (kind : EventKind Job) : Reenters (Act.post kind : Act PostOutcome) := by
  intro s _
  refine ⟨(s.queue.post kind).1, { Residue.still s with posted := [kind] }, rfl, fun veil => ?_⟩
  simp only [Act.post, run_bind, run_get, run_modify, veil.post_cover]
  rfl

theorem reenters_throttle : Reenters throttle :=
  reenters_modify
    (fun s => ⟨{ Residue.still s with
      clock := (s.stage.canvas.limiter.throttle s.clock).1
      limiter := (s.stage.canvas.limiter.throttle s.clock).2 }, rfl⟩)
    fun _ _ => rfl

theorem reenters_forM {items : List α} {f : α → Act Unit} (each : ∀ a, Reenters (f a)) :
    Reenters (items.forM f) := by
  induction items with
  | nil => exact reenters_pure ()
  | cons item items ih => exact (each item).bind fun _ => ih

theorem reenters_postAll (kinds : List (EventKind Job)) :
    Reenters (Act.postAll kinds : Act Unit) :=
  reenters_forM fun kind => (reenters_post kind).bind fun _ => reenters_pure ()

theorem reenters_tellOverlay (overlay : Overlay) (event : OverlayCall) :
    Reenters (tellOverlay overlay event) :=
  reenters_forM fun _ => reenters_note _

/-- A change to the settings. -/
theorem reenters_configure {f : Canvas → Canvas} {g : Settings → Settings}
    (configures : ∀ canvas, f canvas = { canvas with settings := g canvas.settings }) :
    Reenters (modifyCanvas f) := by
  refine reenters_modify (fun s => ?_) fun veil s => ?_
  · refine ⟨{ Residue.still s with settings := g s.stage.canvas.settings }, ?_⟩
    rw [configures]
    rfl
  · simp only [configures]
    rfl

theorem reenters_repaint : Reenters repaint :=
  reenters_throttle.bind fun _ => (reenters_post _).bind fun _ => reenters_pure ()

theorem reenters_repaintTimes (times : Nat) : Reenters (repaintTimes times) := by
  induction times with
  | zero => exact reenters_pure ()
  | succ times ih => exact reenters_repaint.bind fun _ => ih

theorem reenters_setOverlay (overlay : Option Overlay) : Reenters (setOverlay overlay) := by
  have installs : Reenters (modifyCanvas fun canvas => { canvas with overlay }) :=
    reenters_modify (fun s => ⟨{ Residue.still s with overlay }, rfl⟩) fun _ _ => rfl
  cases overlay with
  | none => exact installs
  | some overlay =>
    apply reenters_theCanvas (fun _ _ => rfl)
    intro canvas
    exact (reenters_tellOverlay overlay _).bind fun _ => installs

theorem reenters_postKey (action : KeyAction) (code : Int) : Reenters (postKey action code) := by
  have records : Reenters (modifyCanvas (·.recordKey action code)) :=
    reenters_modify
      (fun s => ⟨{ Residue.still s with held := (s.stage.canvas.recordKey action code).held }, rfl⟩)
      fun _ _ => rfl
  apply records.bind
  intro _
  exact reenters_theCanvas (fun _ _ => rfl) fun canvas => reenters_postAll _

theorem reenters_hostKey (action : KeyAction) (host : Int) : Reenters (hostKey action host) := by
  apply reenters_theCanvas (fun _ _ => rfl)
  intro canvas
  cases canvas.hostKeys.convert? host with
  | none => exact reenters_pure false
  | some code =>
    have posts : Reenters (do postKey action code; return true : Act Bool) :=
      (reenters_postKey action code).bind fun _ => reenters_pure true
    cases canvas.overlay with
    | none => exact posts
    | some overlay =>
      apply (reenters_tellOverlay overlay _).bind
      intro _
      cases overlay.consumesKey code with
      | true => exact reenters_pure true
      | false => exact posts

theorem reenters_postPointer (action : PointerAction) (pointer : Int) (x y : Single) :
    Reenters (do Act.postAll ((← theCanvas).pointerEvents action pointer x y) : Act Unit) :=
  reenters_theCanvas (fun _ _ => rfl) fun _ => reenters_postAll _

theorem reenters_hostPointer (action : PointerAction) (pointer : Int) (x y : Single) :
    Reenters (hostPointer action pointer x y) := by
  apply reenters_theCanvas (fun _ _ => rfl)
  intro canvas
  cases canvas.overlay with
  | none => exact reenters_postPointer action pointer x y
  | some overlay =>
    have asks : Reenters (do
        tellOverlay overlay (.pointer action pointer x y)
        if !overlay.consumesPointer x then
          Act.postAll ((← theCanvas).pointerEvents action pointer x y) : Act Unit) := by
      apply (reenters_tellOverlay overlay _).bind
      intro _
      cases overlay.consumesPointer x with
      | true => exact reenters_pure ()
      | false => exact reenters_postPointer action pointer x y
    cases action with
    | pressed | released =>
      by_cases first : pointer = 0
      · simp only [first, if_true] at asks ⊢
        exact (reenters_tellOverlay overlay _).bind fun _ => asks
      · simp only [first, if_false]
        exact asks
    | dragged => exact asks

theorem reenters_setScale (scaleToFit keepAspectRatio : Bool) (scaleRatio : Int) :
    Reenters (setScale scaleToFit keepAspectRatio scaleRatio) := by
  cases valid : validateScaleRatio scaleRatio with
  | error error =>
    have ran : setScale scaleToFit keepAspectRatio scaleRatio =
        pure (.accepted (.error error)) := by
      simp only [setScale, Canvas.setScale, valid]
      rfl
    rw [ran]
    exact reenters_pure _
  | ok _ =>
    have ran : setScale scaleToFit keepAspectRatio scaleRatio = (do
        modifyCanvas fun canvas => { canvas with settings :=
          { canvas.settings with scaleToFit, keepAspectRatio, scaleRatio } }
        return .accepted (.ok ())) := by
      simp only [setScale, Canvas.setScale, valid]
      rfl
    rw [ran]
    apply (reenters_configure (g := fun settings =>
      { settings with scaleToFit, keepAspectRatio, scaleRatio }) fun _ => rfl).bind
    intro _
    exact reenters_pure _

theorem run_setFullscreen_inside (painting : s.painting = true) {fullscreen : Bool}
    (new : s.stage.canvas.settings.fullscreen ≠ fullscreen) :
    (setFullscreen fullscreen).run.run s = (.ok (), { s with
      stage := { s.stage with canvas := s.stage.canvas.setFullscreen fullscreen }
      queue := (s.queue.post (.displayResized s.stage.canvas.layout.displayWidth
        s.stage.canvas.layout.displayHeight)).2 }) := by
  simp only [setFullscreen, run_bind, run_theCanvas, if_neg new, run_setCanvas, run_get]
  rw [if_pos painting]
  rfl

/-- The new mode is a setting; the size will follow in the order of the queue. -/
theorem reenters_setFullscreen (fullscreen : Bool) : Reenters (setFullscreen fullscreen) := by
  intro s painting
  by_cases same : s.stage.canvas.settings.fullscreen = fullscreen
  · have still : ∀ s : Session Stage, s.stage.canvas.settings.fullscreen = fullscreen →
        (setFullscreen fullscreen).run.run s = (.ok (), s) := by
      intro s same
      simp only [setFullscreen, run_bind, run_theCanvas, if_pos same]
      rfl
    exact ⟨(), .still s, still s same, fun veil => still (veil.cover s) same⟩
  · refine ⟨(), { Residue.still s with
      settings := { s.stage.canvas.settings with fullscreen }
      posted := [.displayResized s.stage.canvas.layout.displayWidth
        s.stage.canvas.layout.displayHeight] }, run_setFullscreen_inside painting same,
      fun veil => ?_⟩
    rw [run_setFullscreen_inside (s := veil.cover s) painting same, veil.post_cover]
    rfl

/-- From inside a paint there is nothing to do. -/
theorem reenters_of_still {a : α}
    (still : ∀ s : Session Stage, s.painting = true → act.run.run s = (.ok a, s)) :
    Reenters act :=
  fun s painting => ⟨a, .still s, still s painting, fun veil => still (veil.cover s) painting⟩

theorem run_serviceRepaints_inside (painting : s.painting = true) :
    (serviceRepaints runner).run.run s = (.ok (), s) := by
  have flushed : s.queue.flush .paint s.painting s.thread = (.reentrant, s.queue) := by
    rw [painting]
    rfl
  simp only [serviceRepaints, run_bind, run_get, flushed, run_set, reduceCtorEq, if_false]
  rfl

theorem reenters_compose : Reenters compose := by
  refine reenters_of_still (a := ()) fun s painting => ?_
  simp only [compose, run_bind, run_get, painting]
  rfl

theorem reenters_snapshot : Reenters snapshot := by
  refine reenters_of_still (a := none) fun s painting => ?_
  simp only [snapshot, run_bind, run_get, painting, if_true]
  rfl

theorem reenters_presentedFrames : Reenters presentedFrames := by
  refine reenters_of_still (a := 0) fun s painting => ?_
  simp only [presentedFrames, run_bind, run_get, painting, if_true]
  rfl

theorem reenters_fps : Reenters fps := by
  refine reenters_of_still (a := none) fun s painting => ?_
  simp only [fps, run_bind, run_get, painting, if_true]
  rfl

theorem reenters_flushBuffer (image : Image) : Reenters (flushBuffer image) := by
  have ran : ∀ s : Session Stage, s.painting = true → (flushBuffer image).run.run s =
      (.ok (), { s with logs := s.logs.push .flushIgnored }) := by
    intro s painting
    simp only [flushBuffer, run_bind, run_get, painting, if_true]
    rw [← painting]
    rfl
  intro s painting
  exact ⟨(), { Residue.still s with logs := s.logs.push .flushIgnored }, ran s painting,
    fun veil => ran (veil.cover s) painting⟩

theorem reenters_done {act : Act Unit} (reenters : Reenters act) : Reenters (done act) :=
  reenters.bind fun _ => reenters_pure _

/-- What is read from outside the images. -/
theorem reenters_reads {f : Session Stage → Answer}
    (blind : ∀ (veil : Veil) s, f (veil.cover s) = f s) :
    Reenters (return f (← get) : Act Answer) := by
  intro s _
  refine ⟨f s, .still s, rfl, fun veil => ?_⟩
  rw [← blind veil s]
  rfl

theorem reenters_perform (runner : Runner Stage) {request : Request}
    (canvas : request.ofCanvas = true) : Reenters (perform runner request) := by
  cases request with
  | repaint times => exact reenters_done (reenters_repaintTimes times)
  | repaintRegion region => exact reenters_done reenters_repaint
  | serviceRepaints =>
    exact reenters_done (reenters_of_still fun s painting => run_serviceRepaints_inside painting)
  | compose => exact reenters_done reenters_compose
  | flushBuffer image => exact reenters_done (reenters_flushBuffer image)
  | snapshot => exact reenters_snapshot.bind fun _ => reenters_pure _
  | presented =>
    apply reenters_presentedFrames.bind
    intro frames
    exact reenters_theCanvas (fun _ _ => rfl) fun _ => reenters_pure _
  | fps => exact reenters_fps.bind fun _ => reenters_pure _
  | key action code => exact reenters_done (reenters_postKey action code)
  | hostKeyDown host repeated => exact (reenters_hostKey _ host).bind fun _ => reenters_pure _
  | hostKeyUp host => exact (reenters_hostKey _ host).bind fun _ => reenters_pure _
  | pointer action pointer x y => exact reenters_done (reenters_hostPointer action pointer x y)
  | surfaceCreated | surfaceDestroyed => exact reenters_done (reenters_postAll _)
  | surfaceChanged width height => exact reenters_done (reenters_postAll _)
  | setFullscreen fullscreen => exact reenters_done (reenters_setFullscreen fullscreen)
  | setVirtualSize width height =>
    exact reenters_done (reenters_configure (g := fun settings =>
      { settings with virtualWidth := width, virtualHeight := height }) fun _ => rfl)
  | setScale fit aspect ratio => exact reenters_setScale fit aspect ratio
  | setFilter filter =>
    exact reenters_done (reenters_configure (g := fun settings =>
      { settings with filter }) fun _ => rfl)
  | setFpsLimit fpsLimit =>
    have sets : Reenters (modifyCanvas (·.setFpsLimit fpsLimit)) :=
      reenters_modify (fun s => ⟨{ Residue.still s with
        limiter := (s.stage.canvas.setFpsLimit fpsLimit).limiter }, rfl⟩) fun _ _ => rfl
    exact sets.bind fun _ => reenters_theCanvas (fun _ _ => rfl) fun _ => reenters_pure _
  | setTouchInput touchInput =>
    exact reenters_done (reenters_configure (g := fun settings =>
      { settings with touchInput }) fun _ => rfl)
  | setHardwareAcceleration enabled parallel =>
    exact reenters_done (reenters_configure (g := fun settings =>
      { settings with hardwareAcceleration := enabled, parallelRedraw := parallel }) fun _ => rfl)
  | setBackground rgb =>
    exact reenters_done (reenters_configure (g := fun settings =>
      { settings with background := Settings.solid rgb }) fun _ => rfl)
  | setKeyLayout keyLayout =>
    exact reenters_done (reenters_modify (fun s => ⟨{ Residue.still s with keyLayout }, rfl⟩)
      fun _ _ => rfl)
  | setHostKeys hostKeys =>
    exact reenters_done (reenters_modify (fun s => ⟨{ Residue.still s with hostKeys }, rfl⟩)
      fun _ _ => rfl)
  | setOverlay overlay => exact reenters_done (reenters_setOverlay overlay)
  | lastFrame | isPainting | state | heldKeys | gameAction | keyCode | keyName | debugText =>
    exact reenters_reads fun _ _ => rfl
  | createGame | drawGame | flushGame | flushGameRegion | gameKeys | paintGame => cases canvas

/-- A call that may never come back; there is nothing then. -/
abbrev Blocking (α : Type) :=
  ExceptT Fault (StateT (Session Stage) Option) α

namespace Blocking

open Handset.Act (post log)

/-- Waits for no paint. -/
def free (act : Act α) : Blocking α :=
  .mk fun s => some (act.run.run s)

/-- Waits for the images, and has them in hand meanwhile. A thread inside a paint waits for what it
has itself. -/
def withImages (act : Act α) : Blocking α :=
  .mk fun s => if s.painting then none else some (act.run.run s)

/-- Waits for the paint in progress to be over. A thread inside of it waits for itself. -/
def awaitPaint : Blocking Unit :=
  .mk fun s => if s.painting then none else some (.ok (), s)

/-- What a canvas answers to a request, with all that it waits for. Those of a game canvas only are
not looked into. -/
def perform (runner : Runner Stage) : Request → Blocking Answer
  | .serviceRepaints => do
    let session ← free get
    match (session.queue.flush .paint session.painting session.thread).1 with
    | .reentrant => return .nothing
    | .busy _ =>
      awaitPaint
      return .nothing
    | .take => withImages (Stage.perform runner .serviceRepaints)
    | .idle => return .nothing
  | .compose => do
    if (← free get).painting then return .nothing
    withImages (Stage.done composeFrame)
  | .flushBuffer image => do
    if (← free get).painting then
      free (log .flushIgnored)
      return .nothing
    free throttle
    withImages do
      modifyCanvas fun canvas => { canvas with frame := canvas.frame.submit image }
      composeUnlessParallel
      return .nothing
  | .snapshot => do
    if (← free get).painting then return .picture none
    withImages do return .picture (some (← (← theCanvas).snapshot))
  | .presented => do
    let display := (← free theCanvas).frame.display
    if (← free get).painting then return .presented 0 display.shown
    withImages do return .presented (← theCanvas).frame.presented display.shown
  | .fps => do
    if (← free get).painting then return .rate none
    withImages do return .rate ((← theCanvas).frame.fps.map (·.rate))
  | .setFullscreen fullscreen => do
    let canvas ← free theCanvas
    if canvas.settings.fullscreen = fullscreen then return .nothing
    free (setCanvas (canvas.setFullscreen fullscreen))
    if (← free get).painting then
      let _ ← free (post (.displayResized canvas.layout.displayWidth canvas.layout.displayHeight))
      return .nothing
    let _ ← withImages Stage.updateSize
    let l := (← free theCanvas).layout
    let _ ← free (post (.sizeChanged l.width l.height))
    return .nothing
  | request => free (Stage.perform runner request)

/-- From inside a paint the call comes back, and has done what the action does. -/
def Returns (call : Blocking α) (act : Act α) : Prop :=
  ∀ s : Session Stage, s.painting = true → call.run.run s = some (act.run.run s)

theorem run_bind (call : Blocking α) (next : α → Blocking β) (s : Session Stage) :
    (call >>= next).run.run s = (call.run.run s).bind fun
      | (.ok a, s') => (next a).run.run s'
      | (.error fault, s') => some (.error fault, s') := by
  simp only [ExceptT.run_bind, StateT.run_bind]
  cases call.run.run s with
  | none => rfl
  | some pair =>
    obtain ⟨result, s'⟩ := pair
    cases result <;> rfl

theorem run_free (act : Act α) (s : Session Stage) :
    (free act).run.run s = some (act.run.run s) :=
  rfl

/-- There are seven requests that may have to wait, and each finds out first where it is made. -/
theorem returns_perform (runner : Runner Stage) (request : Request) :
    Returns (perform runner request) (Stage.perform runner request) := by
  intro s painting
  cases request with
  | setFullscreen fullscreen =>
    have asked : (Stage.perform runner (.setFullscreen fullscreen)).run.run s =
        (done (setFullscreen fullscreen)).run.run s := rfl
    by_cases same : s.stage.canvas.settings.fullscreen = fullscreen
    · simp only [asked, done, setFullscreen, perform, Handset.run_bind, run_bind, run_free,
        run_theCanvas, Option.bind_some, if_pos same]
      rfl
    · rw [asked, done, Handset.run_bind, run_setFullscreen_inside painting same]
      simp only [perform, run_bind, run_free, run_theCanvas, Option.bind_some, if_neg same,
        run_setCanvas, run_get]
      rw [if_pos painting]
      rfl
  | serviceRepaints | compose | flushBuffer | snapshot | presented | fps =>
    cases s
    cases painting
    rfl
  | _ => rfl

end Blocking

/-- What a call does. -/
def answer (runner : Runner Stage) : CanvasCall → Act Answer
  | .ask request _ => perform runner request
  | .dispatch job => return .posted (← Act.post (.task job))
  | .interrupt => change fun canvas => { canvas with limiter := canvas.limiter.interrupt }

/-- What a call does, with all that it waits for. -/
def Blocking.answer (runner : Runner Stage) : CanvasCall → Blocking Answer
  | .ask request _ => Blocking.perform runner request
  | call => free (Stage.answer runner call)

theorem reenters_answer (runner : Runner Stage) (call : CanvasCall) :
    Reenters (answer runner call) := by
  cases call with
  | ask request canvas => exact reenters_perform runner canvas
  | dispatch job => exact (reenters_post _).bind fun _ => reenters_pure _
  | interrupt =>
    exact reenters_done (reenters_modify (fun s => ⟨{ Residue.still s with
      limiter := s.stage.canvas.limiter.interrupt }, rfl⟩) fun _ _ => rfl)

theorem reenters_answers (runner : Runner Stage) (calls : List CanvasCall) :
    Reenters (calls.mapM (answer runner)) := by
  induction calls with
  | nil => exact reenters_pure []
  | cons call calls ih =>
    rw [List.mapM_cons]
    apply (reenters_answer runner call).bind
    intro answer
    apply ih.bind
    intro answers
    exact reenters_pure _

theorem returns_answer (runner : Runner Stage) (call : CanvasCall) :
    Blocking.Returns (Blocking.answer runner call) (answer runner call) := by
  cases call with
  | ask request => exact Blocking.returns_perform runner request
  | dispatch | interrupt => exact fun _ _ => rfl

theorem returns_answers (runner : Runner Stage) (calls : List CanvasCall) :
    Blocking.Returns (calls.mapM (Blocking.answer runner)) (calls.mapM (answer runner)) := by
  induction calls with
  | nil => exact fun _ _ => rfl
  | cons call calls ih =>
    intro s painting
    obtain ⟨answer, residue, ran, -⟩ := reenters_answer runner call s painting
    obtain ⟨answers, residue', ran', -⟩ := reenters_answers runner calls (residue.leave s) painting
    simp only [List.mapM_cons, Blocking.run_bind, Handset.run_bind,
      returns_answer runner call s painting, ran, Option.bind_some, ih (residue.leave s) painting,
      ran']
    rfl

/-- Whatever an application asks of its canvas from inside its paint, and however often, each call
comes back: none takes the images that the thread has in hand, and none waits for the paint. What is
left of it are settings, keys and events for later; neither the images nor the layout change, and
the calls do the same whatever these images are and whichever runs are in progress. Other threads do
no more to them in the meantime than the application itself does by drawing. -/
theorem calls_return (runner : Runner Stage) (calls : List CanvasCall) :
    (∀ s : Session Stage, s.painting = true → ∃ answers s',
      (calls.mapM (Blocking.answer runner)).run.run s = some (.ok answers, s') ∧
      (calls.mapM (answer runner)).run.run s = (.ok answers, s') ∧
      Untouched s s' ∧ (∃ residue : Residue, s' = residue.leave s) ∧
      ∀ veil : Veil,
        (calls.mapM (answer runner)).run.run (veil.cover s) = (.ok answers, veil.cover s')) ∧
    ∀ studio later : Studio, studio.holder = some .painting → studio.Paints later →
      later.canvas.layout = studio.canvas.layout ∧
      later.canvas.frame =
        { studio.canvas.frame with offscreen := later.canvas.frame.offscreen } := by
  refine ⟨fun s painting => ?_, fun studio later painting paints => ?_⟩
  · obtain ⟨answers, residue, ran, blind⟩ := reenters_answers runner calls s painting
    refine ⟨answers, residue.leave s, ?_, ran, ⟨rfl, rfl⟩, ⟨residue, rfl⟩, blind⟩
    rw [returns_answers runner calls s painting, ran]
  · exact ⟨(paints.layout_eq painting).1, paints.frame_eq painting⟩

/-- A pixel that is being painted. -/
def pixelPaint : Session Stage where
  stage := { canvas := pixelCanvas, app := .scripted, backBuffer := .blank 1 1 }
  painting := true

/-- Two of the calls would have to wait elsewhere, and two post an event each. Another thread sets a
larger display in the meantime. -/
theorem calls_return_pixelPaint :
    let calls : List CanvasCall := [.ask .compose rfl, .ask .serviceRepaints rfl,
      .ask (.setFullscreen false) rfl, .dispatch (.named "later" (.mk none .done))]
    let resized := pixelCanvas.setDisplaySize 3 2
    (∃ answers s', (calls.mapM (Blocking.answer ⟨Host.stage.step 0, fun _ => return⟩)).run.run
        pixelPaint = some (.ok answers, s') ∧
      Untouched pixelPaint s' ∧ s'.stage.canvas.settings.fullscreen = false ∧
      s'.queue.size = 2) ∧
    resized.layout = pixelCanvas.layout ∧ resized.frame.copy = pixelCanvas.frame.copy := by
  intro calls resized
  have holds := calls_return ⟨Host.stage.step 0, fun _ => return⟩ calls
  constructor
  · obtain ⟨answers, s', returns, ran, untouched, -⟩ := holds.1 pixelPaint rfl
    refine ⟨answers, s', returns, untouched, ?_, ?_⟩
    · exact congrArg (·.2.stage.canvas.settings.fullscreen) ran.symm
    · exact congrArg (·.2.queue.size) ran.symm
  · have sets : Studio.Step ⟨pixelCanvas, some .painting⟩ ⟨resized, some .painting⟩ :=
      .configure rfl rfl
    have keeps := holds.2 ⟨pixelCanvas, some .painting⟩ ⟨resized, some .painting⟩ rfl
      (.single ⟨sets, rfl⟩)
    refine ⟨keeps.1, ?_⟩
    rw [keeps.2]

end Stage

end Handset
