import Handset.Floating

/-! Events: what is asked of a canvas, as plain values. `Work` is the type of the work that may be
handed to the thread that handles events. -/

namespace Handset

inductive KeyAction
  | pressed | repeated | released
  deriving DecidableEq, Repr

inductive PointerAction
  | pressed | dragged | released
  deriving DecidableEq, Repr

/-- `sizeChanged` tells the application of the size of the canvas, `displayResized` the canvas of
the size of the display. -/
inductive EventKind (Work : Type)
  | paint
  | key (action : KeyAction) (code : Int)
  | pointer (action : PointerAction) (pointer : Int) (x y : Single)
  | sizeChanged (width height : Int)
  | displayResized (width height : Int)
  | showNotify
  | hideNotify
  | task (work : Work)
  deriving DecidableEq

/-- The kind of an event without its content. -/
inductive EventTag
  | paint | key | pointer | sizeChanged | displayResized | showNotify | hideNotify | task
  deriving DecidableEq, Repr

namespace EventTag

def all : List EventTag :=
  [paint, key, pointer, sizeChanged, displayResized, showNotify, hideNotify, task]

theorem mem_all (tag : EventTag) : tag ∈ all := by
  cases tag <;> simp [all]

def name : EventTag → String
  | paint => "Paint"
  | key => "Key"
  | pointer => "Pointer"
  | sizeChanged => "SizeChanged"
  | displayResized => "DisplayResized"
  | showNotify => "ShowNotify"
  | hideNotify => "HideNotify"
  | task => "Task"

/-- The place of a tag in `all`. -/
def index : EventTag → Fin 8
  | paint => 0
  | key => 1
  | pointer => 2
  | sizeChanged => 3
  | displayResized => 4
  | showNotify => 5
  | hideNotify => 6
  | task => 7

@[simp] theorem index_inj {a b : EventTag} : a.index = b.index ↔ a = b := by
  cases a <;> cases b <;> decide

end EventTag

variable {Work : Type}

def EventKind.tag : EventKind Work → EventTag
  | .paint => .paint
  | .key .. => .key
  | .pointer .. => .pointer
  | .sizeChanged .. => .sizeChanged
  | .displayResized .. => .displayResized
  | .showNotify => .showNotify
  | .hideNotify => .hideNotify
  | .task _ => .task

/-- An event in the queue, under the number it was let in with. -/
structure Event (Work : Type) where
  id : Nat
  kind : EventKind Work
  deriving DecidableEq

def Event.tag (event : Event Work) : EventTag :=
  event.kind.tag

/-- Two requests to repaint are one; no other events are the same. -/
def EventTag.isDuplicate (candidate : EventTag) (queued : Event Work) : Bool :=
  candidate == .paint && queued.tag == .paint

/-- A request to repaint may not follow another directly. -/
def EventTag.placeableAfter (candidate : EventTag) (last : Event Work) : Bool :=
  !(candidate == .paint && last.tag == .paint)

end Handset
