import Handset.Proofs.Screen
import Handset.Queue

/-! A canvas among threads. One thread takes events out of the queue and handles them in turn; any
other posts and removes events, changes settings, or runs a repaint in place. What a thread does
under one lock is a move, and the moves of different threads follow each other in any order. -/

namespace Handset

/-- The size of the display that an event brings. -/
def EventKind.resize? {Work : Type} : EventKind Work → Option Size
  | .displayResized width height => some ⟨width, height⟩
  | _ => none

/-- On the thread that takes events in turn, or in place on another. -/
inductive Way
  | inTurn | inPlace
  deriving DecidableEq, Repr

/-- Why an event was posted: the host has a new surface, full screen mode changed, or someone just
asked. -/
inductive Cause
  | request | surface | fullscreen
  deriving DecidableEq, Repr

/-- What is worth keeping of a move. `told` has the size that the application was given and the one
that the canvas had at that moment; `faulted` says that there was no layout, for the event with the
number or for a change to full screen mode. -/
inductive Mark (Work : Type)
  | admitted (event : Event Work) (cause : Cause)
  | began (id : Nat) (way : Way)
  | finished (id : Nat)
  | removed (id : Nat)
  | painted (id : Nat)
  | skipped (id : Nat)
  | resized (id : Nat)
  | told (tag : EventTag) (size actual : Size)
  | composed (size : Size)
  | faulted (id : Option Nat)
  deriving DecidableEq

def removals {Work : Type} (events : List (Event Work)) : List (Mark Work) :=
  events.map fun event => .removed event.id

/-- How far a paint cycle is. The images belong to the thread that is `inside`. -/
inductive PaintPhase
  | look | wait | inside | ended
  deriving DecidableEq, Repr

/-- How far the handling of an event is. -/
inductive Phase
  | start
  | paint (phase : PaintPhase)
  | recompute
  | settle (changed : Bool)
  | tell (size : Size)
  | leave
  deriving DecidableEq, Repr

structure Turn (Work : Type) where
  event : Event Work
  phase : Phase
  deriving DecidableEq

/-- A repaint that a thread runs in place. -/
structure InPlace where
  id : Nat
  thread : Nat
  phase : PaintPhase
  deriving DecidableEq, Repr

/-- What a thread has yet to do of a request to the canvas: the repaint after a new surface, and the
parts of a change to full screen mode outside of a paint and inside. -/
inductive Call
  | repaint
  | recompute
  | announce
  | notify (size : Size)
  | defer
  | repost (size : Size)
  deriving DecidableEq, Repr

/-- The application will be told a size. -/
def Call.isNotice : Call → Bool
  | announce => true
  | notify _ => true
  | _ => false

/-- A change to the canvas that leaves the sizes alone: drawing, input, the settings that count for
the next layout or the next frame. -/
structure Adjustment where
  apply : Canvas → Canvas
  agrees : ∀ canvas : Canvas, canvas.Agrees (apply canvas)

structure World (Work : Type) where
  canvas : Canvas
  queue : Queue Work := {}
  turn : Option (Turn Work) := none
  runs : List InPlace := []
  calls : List Call := []
  log : List (Mark Work) := []

/-- What a world comes to: all but the images of its canvas. -/
structure Outcome (Work : Type) where
  closed : Bool := false
  shown : Bool := false
  displaySize : Size
  events : List (Event Work) := []
  turn : Option (Turn Work) := none
  runs : List InPlace := []
  calls : List Call := []
  log : List (Mark Work)
  deriving DecidableEq

def World.outcome {Work : Type} (w : World Work) : Outcome Work where
  closed := w.queue.closed
  shown := w.canvas.shown
  displaySize := w.canvas.layout.displaySize
  events := w.queue.events
  turn := w.turn
  runs := w.runs
  calls := w.calls
  log := w.log

/-- `handle` and `run` go on with the event at hand and with a repaint in place; `ok` is how the
application's paint ends, if it is there. -/
inductive Move (Work : Type)
  | post (kind : EventKind Work)
  | surfaceChanged (width height : Int)
  | setFullscreen (fullscreen painting : Bool)
  | call (i : Nat)
  | adjust (adjustment : Adjustment)
  | compose (now : Nat)
  | submit (image : Image) (now : Nat)
  | service (painting : Bool) (thread : Nat)
  | run (i : Nat) (ok : Bool) (now : Nat)
  | remove (p : Event Work → Bool)
  | close
  | next
  | handle (ok : Bool) (now : Nat)

namespace World

variable {Work : Type}

/-- Some thread is inside the application's paint. -/
def locked (w : World Work) : Bool :=
  w.turn.any (·.phase == .paint .inside) || w.runs.any (·.phase == .inside)

def atHand (w : World Work) : Option (Event Work) :=
  w.turn.map (·.event)

/-- Nothing is queued and no event is handled in turn. -/
structure Drained (w : World Work) : Prop where
  events : w.queue.events = []
  turn : w.turn = none

/-- The newest mark comes first. -/
def note (w : World Work) (mark : Mark Work) : World Work :=
  { w with log := mark :: w.log }

def toDo (w : World Work) (call : Call) : World Work :=
  { w with calls := w.calls ++ [call] }

def toPhase (w : World Work) (turn : Turn Work) (phase : Phase) : World Work :=
  { w with turn := some { turn with phase } }

def post (w : World Work) (cause : Cause) (kind : EventKind Work) : World Work :=
  match w.queue.post kind with
  | (.queued id, queue) => { w with queue, log := .admitted ⟨id, kind⟩ cause :: w.log }
  | (_, queue) => { w with queue }

/-- Computes the layout anew. The answer is whether the size of the canvas changed, if there is a
layout. -/
def recompute (w : World Work) (id : Option Nat) : Option Bool × World Work :=
  match w.canvas.updateSize with
  | .ok (changed, canvas) => (some changed, { w with canvas })
  | .error _ => (none, w.note (.faulted id))

/-- Composes what is shown; a fault leaves things as they were. -/
def compose (w : World Work) (now : Nat) : World Work :=
  match w.canvas.compose now with
  | .ok (_, canvas) =>
    { w with canvas, log := .composed canvas.frame.screen.size :: w.log }
  | .error _ => w

def present (w : World Work) (frame : Frame) (now : Nat) : World Work :=
  let w := { w with canvas := { w.canvas with frame } }
  if w.canvas.settings.parallelRedraw then w else w.compose now

/-- Goes on with a paint cycle. A hidden canvas is not painted, and a drawing that failed is not
shown. -/
def cycle (w : World Work) (id : Nat) (ok : Bool) (now : Nat) :
    PaintPhase → Option (PaintPhase × World Work)
  | .look => some (if w.canvas.shown then (.wait, w) else (.ended, w.note (.skipped id)))
  | .wait => if w.locked then none else some (.inside, w.note (.painted id))
  | .inside => some (.ended, if ok then w.present w.canvas.frame.finish now else w)
  | .ended => none

def perform (w : World Work) : Call → Option (World Work)
  | .repaint => some (w.post .surface .paint)
  | .recompute =>
    if w.locked then none
    else match w.recompute none with
      | (some _, w) => some (w.toDo .announce)
      | (none, w) => some w
  | .announce => some (w.toDo (.notify w.canvas.layout.size))
  | .notify size => some (w.post .fullscreen (.sizeChanged size.width size.height))
  | .defer => some (w.toDo (.repost w.canvas.layout.displaySize))
  | .repost size => some (w.post .fullscreen (.displayResized size.width size.height))

/-- Changes the full screen setting and takes up the rest of the request, if this is a change. -/
def setFullscreen (w : World Work) (fullscreen painting : Bool) : World Work :=
  if w.canvas.settings.fullscreen = fullscreen then w
  else
    let w := { w with canvas := w.canvas.setFullscreen fullscreen }
    w.toDo (if painting then .defer else .recompute)

/-- Takes a queued repaint out to run it in place, unless one is in progress. -/
def service (w : World Work) (painting : Bool) (thread : Nat) : World Work :=
  match w.queue.flush .paint painting thread, w.queue.events.find? (·.tag == .paint) with
  | (.take, queue), some event =>
    { w with
      queue
      runs := w.runs ++ [⟨event.id, thread, .look⟩]
      log := .began event.id .inPlace :: w.log }
  | _, _ => w

/-- Takes events out of the queue that will not be handled. -/
def drop (w : World Work) (events : List (Event Work)) (queue : Queue Work) : World Work :=
  { w with queue, log := removals events ++ w.log }

def start (w : World Work) (turn : Turn Work) : World Work :=
  match turn.event.kind with
  | .paint => w.toPhase turn (.paint .look)
  | .sizeChanged width height =>
    (w.note (.told .sizeChanged ⟨width, height⟩ w.canvas.layout.size)).toPhase turn .leave
  | .displayResized width height =>
    { w with canvas := w.canvas.setDisplaySize width height }.toPhase turn .recompute
  | .showNotify => { w with canvas := { w.canvas with shown := true } }.toPhase turn .leave
  | .hideNotify => { w with canvas := { w.canvas with shown := false } }.toPhase turn .leave
  | _ => w.toPhase turn .leave

def finish (w : World Work) (event : Event Work) : World Work :=
  { w with
    queue := w.queue.finish event.tag
    turn := none
    log := .finished event.id :: w.log }

def handle (w : World Work) (turn : Turn Work) (ok : Bool) (now : Nat) : Option (World Work) :=
  match turn.phase with
  | .start => some (w.start turn)
  | .paint .ended => some (w.finish turn.event)
  | .paint phase =>
    (w.cycle turn.event.id ok now phase).map fun (phase, w) => w.toPhase turn (.paint phase)
  | .recompute =>
    if w.locked then none
    else match w.recompute (some turn.event.id) with
      | (some changed, w) => some ((w.note (.resized turn.event.id)).toPhase turn (.settle changed))
      | (none, w) => some (w.toPhase turn .leave)
  | .settle changed =>
    let reported := { w with canvas := { w.canvas with sizeReported := true } }
    some (reported.toPhase turn
      (if changed || !w.canvas.sizeReported then .tell w.canvas.layout.size else .leave))
  | .tell size =>
    some ((w.note (.told .displayResized size w.canvas.layout.size)).toPhase turn .leave)
  | .leave => some (w.finish turn.event)

def goOn (w : World Work) (i : Nat) (run : InPlace) (ok : Bool) (now : Nat) :
    Option (World Work) :=
  match run.phase with
  | .ended => some { w with
      queue := w.queue.finishInline .paint run.thread
      runs := w.runs.eraseIdx i
      log := .finished run.id :: w.log }
  | phase =>
    (w.cycle run.id ok now phase).map fun (phase, w) =>
      { w with runs := w.runs.set i { run with phase } }

/-- A move that cannot be made now has no result. -/
def step (w : World Work) : Move Work → Option (World Work)
  | .post kind => some (w.post .request kind)
  | .surfaceChanged width height =>
    some ((w.post .surface (.displayResized width height)).toDo .repaint)
  | .setFullscreen fullscreen painting =>
    if painting && !w.locked then none else some (w.setFullscreen fullscreen painting)
  | .call i => w.calls[i]?.bind fun call => { w with calls := w.calls.eraseIdx i }.perform call
  | .adjust adjustment => some { w with canvas := adjustment.apply w.canvas }
  | .compose now => if w.locked then none else some (w.compose now)
  | .submit image now =>
    if w.locked then none else some (w.present (w.canvas.frame.submit image) now)
  | .service painting thread =>
    if painting && !w.locked then none else some (w.service painting thread)
  | .run i ok now => w.runs[i]?.bind fun run => w.goOn i run ok now
  | .remove p => some (w.drop (w.queue.events.filter p) (w.queue.remove p).2)
  | .close => some (w.drop (if w.queue.closed then [] else w.queue.events) w.queue.close.2)
  | .next =>
    if w.turn.isSome then none
    else w.queue.next?.map fun (event, queue) =>
      { w with queue, turn := some ⟨event, .start⟩, log := .began event.id .inTurn :: w.log }
  | .handle ok now => w.turn.bind fun turn => w.handle turn ok now

/-- The worlds that moves make of a canvas with an empty queue. -/
inductive Reaches (canvas : Canvas) : World Work → Prop
  | start : Reaches canvas { canvas }
  | step {w w' : World Work} {move : Move Work} :
      Reaches canvas w → w.step move = some w' → Reaches canvas w'

def run (w : World Work) : List (Move Work) → Option (World Work)
  | [] => some w
  | move :: moves => (w.step move).bind (·.run moves)

theorem Reaches.run {canvas : Canvas} {w w' : World Work} {moves : List (Move Work)}
    (reach : Reaches canvas w) (made : w.run moves = some w') : Reaches canvas w' := by
  induction moves generalizing w with
  | nil =>
    cases made
    exact reach
  | cons move moves ih =>
    obtain ⟨v, first, rest⟩ := Option.bind_eq_some_iff.mp made
    exact ih (reach.step first) rest

end World

/-- In full screen mode and never scaled. -/
def pixelConfig : Config where
  display := { forceFullscreen := true }
  scaling := { scaleToFit := false }

theorem pixel_isSome : (Canvas.create pixelConfig .headless 1 1 0).toOption.isSome = true := by
  decide +kernel

/-- A canvas on a display of one pixel, small enough to follow its runs move by move. -/
def pixelCanvas : Canvas :=
  (Canvas.create pixelConfig .headless 1 1 0).toOption.get pixel_isSome

theorem create_pixelCanvas : Canvas.create pixelConfig .headless 1 1 0 = .ok pixelCanvas :=
  rfl

/-- A world of its own for the canvas on one pixel. -/
def pixelWorld : World Empty :=
  { canvas := pixelCanvas }

def carryOn (times : Nat) : List (Move Empty) :=
  List.replicate times (.handle true 0)

def takeUp (times : Nat) : List (Move Empty) :=
  .next :: carryOn times

end Handset
