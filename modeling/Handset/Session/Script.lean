import Handset.Canvas
import Handset.Queue

/-! Scripts: what the application, the work it posts and its host do in a session, as data. A step
is one thing done to the queue or to the canvas; a body is a list of steps and the way it ends, and
stands wherever the application's own code would run. -/

namespace Handset

/-- The error of a body: its cause and then the contexts it was wrapped in. -/
structure Failure where
  texts : List String
  deriving DecidableEq, Repr

/-- The outermost context first. -/
def Failure.text (failure : Failure) : String :=
  ": ".intercalate failure.texts.reverse

inductive Ending
  | done
  | fail (failure : Failure)
  | raise (text : Option String)
  deriving DecidableEq, Repr

/-- The calls that a canvas makes to its application. -/
inductive Callback
  | paint
  | sizeChanged
  | showNotify
  | hideNotify
  | key (action : KeyAction)
  | pointer (action : PointerAction)
  deriving DecidableEq, Repr

/-- What a rule waits for: an event that is handled, or a call to the application. -/
inductive Trigger
  | event (tag : EventTag)
  | callback (call : Callback)
  deriving DecidableEq, Repr

/-- The queued events that a step removes. -/
inductive Selection
  | tag (tag : EventTag)
  | id (id : Nat)
  | oddIds
  | keyCode (code : Int)
  deriving DecidableEq, Repr

def EventKind.keyCode? {Work : Type} : EventKind Work → Option Int
  | .key _ code => some code
  | _ => none

def Selection.selects {Work : Type} (selection : Selection) (event : Event Work) : Bool :=
  match selection with
  | tag t => event.tag == t
  | id n => event.id == n
  | oddIds => event.id % 2 == 1
  | keyCode code => event.kind.keyCode? == some code

/-- What a host or an application may ask of a canvas. -/
inductive Request
  | repaint (times : Nat)
  | repaintRegion (region : Rect)
  | serviceRepaints
  | compose
  | flushBuffer (image : Image)
  | snapshot
  | lastFrame
  | presented
  | fps
  | isPainting
  | key (action : KeyAction) (code : Int)
  | hostKeyDown (host : Int) (repeated : Bool)
  | hostKeyUp (host : Int)
  | pointer (action : PointerAction) (pointer : Int) (x y : Single)
  | surfaceCreated
  | surfaceDestroyed
  | surfaceChanged (width height : Int)
  | setFullscreen (fullscreen : Bool)
  | setVirtualSize (width height : Int)
  | setScale (scaleToFit keepAspectRatio : Bool) (scaleRatio : Int)
  | setFilter (filter : Bool)
  | setFpsLimit (fpsLimit : Nat)
  | setTouchInput (touchInput : Bool)
  | setHardwareAcceleration (enabled parallelRedraw : Bool)
  | setKeyLayout (layout : KeyLayout)
  | setHostKeys (keys : HostKeys)
  | setBackground (rgb : UInt32)
  | setOverlay (overlay : Option Overlay)
  | state
  | heldKeys
  | gameAction (code : Int)
  | keyCode (action : Int)
  | keyName (code : Int)
  | debugText
  | createGame (suppressKeys : Bool)
  | drawGame (drawings : List Drawing)
  | flushGame
  | flushGameRegion (region : Rect)
  | gameKeys
  | paintGame (image : Image) (drawings : List Drawing)

mutual

/-- A dispatch runs a second thread that handles events while this one does the steps that it holds;
`holdPaint` keeps it inside a repaint meanwhile, and `service` waits for a repaint at the end. -/
inductive Step
  | post (kind : EventKind Job)
  | process
  | drain (limit : Nat)
  | remove (selection : Selection)
  | flush (tag : EventTag) (reentrant : Bool) (held : List Step)
  | counts
  | inspect
  | close
  | addRule (rule : Rule)
  | setPaint (script : List PaintItem)
  | perform (body : Body)
  | dispatch (held : List Step) (holdPaint service : Bool)
  | ask (request : Request)

inductive Body
  | mk (steps : Option (List Step)) (ending : Ending)

/-- Work that is posted: a script, or one of the two that a dispatch posts, to hold the second thread
and to see that the queue is empty. -/
inductive Job
  | named (name : String) (body : Body)
  | gate (held : List Step)
  | last (left : Nat)

/-- A body that runs when its trigger comes, a number of times, and for one key only if it has a
code. -/
inductive Rule
  | mk (trigger : Trigger) (code : Option Int) (times : Nat) (body : Body)

/-- A part of the application's paint: a drawing, the back buffer, or a body. -/
inductive PaintItem
  | drawing (drawing : Drawing)
  | backBuffer
  | body (body : Body)

end

/-- Fills the canvas with red. -/
def PaintItem.standard : List PaintItem :=
  [.drawing (.setColor 0xFF0000), .drawing .fillAll]

/-- Finds the first rule that a trigger and a key code set off, and counts it down. -/
def Rule.fire (trigger : Trigger) (code : Option Int) : List Rule → Option (Body × List Rule)
  | [] => none
  | .mk t c times body :: rest =>
    if t = trigger ∧ 0 < times ∧ (c = none ∨ c = code) then
      some (body, .mk t c (times - 1) body :: rest)
    else (fire trigger code rest).map fun (found, rest) => (found, .mk t c times body :: rest)

end Handset
