import Handset.Key

/-! Keys of the host and the handset keys they are bound to. -/

namespace Handset

structure KeyBinding where
  host : Int
  handset : Int
  deriving DecidableEq, Repr

/-- A list of bindings. A host key bound twice has its last binding. -/
structure HostKeys where
  bindings : List KeyBinding
  deriving DecidableEq, Repr

namespace HostKeys

/-- Digits, `*`, `#`, the arrows, enter as fire, the soft keys, and the keys that take and end a
call. -/
def standard : HostKeys := ⟨[
  ⟨7, Key.num0⟩, ⟨8, Key.num1⟩, ⟨9, Key.num2⟩, ⟨10, Key.num3⟩, ⟨11, Key.num4⟩, ⟨12, Key.num5⟩,
  ⟨13, Key.num6⟩, ⟨14, Key.num7⟩, ⟨15, Key.num8⟩, ⟨16, Key.num9⟩, ⟨17, Key.star⟩,
  ⟨18, Key.pound⟩, ⟨19, Key.up⟩, ⟨20, Key.down⟩, ⟨21, Key.left⟩, ⟨22, Key.right⟩, ⟨66, Key.fire⟩,
  ⟨1, Key.softLeft⟩, ⟨2, Key.softRight⟩, ⟨5, Key.send⟩, ⟨6, Key.hangUp⟩]⟩

/-- The handset key of a host key, if it is bound. -/
def convert? (keys : HostKeys) (host : Int) : Option Int :=
  (keys.bindings.reverse.find? (·.host == host)).map (·.handset)

/-- The number of host keys that are bound. -/
def size (keys : HostKeys) : Nat :=
  (keys.bindings.map (·.host)).eraseDups.length

end HostKeys

end Handset
