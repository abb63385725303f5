import Handset.Event
import Handset.Geometry.Rect

/-! A layer that the host draws over the canvas. It is asked first about each key and pointer, and
may keep an event to itself. -/

namespace Handset

/-- A silent overlay keeps nothing; another keeps the keys of a list and the pointers left of a
limit. -/
inductive Overlay
  | silent
  | consuming (keys : List Int) (maxX : Single)
  deriving DecidableEq, Repr

/-- A call that a host can see its overlay get. -/
inductive OverlayCall
  | key (action : KeyAction) (code : Int)
  | pointer (action : PointerAction) (pointer : Int) (x y : Single)
  | appear
  | disappear
  | resize (screen virtualScreen : Rect)
  deriving DecidableEq, Repr

namespace Overlay

/-- The calls that leave a trace: a silent overlay shows none. -/
def traced (overlay : Overlay) (call : OverlayCall) : List OverlayCall :=
  match overlay with
  | silent => []
  | consuming .. => [call]

def consumesKey (overlay : Overlay) (code : Int) : Bool :=
  match overlay with
  | silent => false
  | consuming keys _ => keys.contains code

def consumesPointer (overlay : Overlay) (x : Single) : Bool :=
  match overlay with
  | silent => false
  | consuming _ maxX => x.less maxX

end Overlay

end Handset
