import Handset.Error
import Handset.Geometry.Keyboard
import Handset.Key.Host
import Handset.Key.Layout

/-! The settings a canvas starts with. -/

namespace Handset

namespace Config

/-- The size asked of the virtual screen, where a negative side is derived from the display, and
the colour around it. -/
structure Display where
  virtualWidth : Int := -1
  virtualHeight : Int := -1
  forceFullscreen : Bool := false
  backgroundColor : UInt32 := 0xFFFFFF
  showFps : Bool := false
  deriving DecidableEq, Repr

structure Scaling where
  scaleToFit : Bool := true
  keepAspectRatio : Bool := true
  scaleRatio : Int := 100
  filter : Bool := false
  deriving DecidableEq, Repr

/-- A frame limit of zero is no limit. -/
structure Performance where
  fpsLimit : Nat := 0
  hardwareAcceleration : Bool := false
  parallelRedraw : Bool := false
  deriving DecidableEq, Repr

structure Input where
  layout : KeyLayout := .standard
  touchInput : Bool := true
  keyBindings : List KeyBinding := HostKeys.standard.bindings
  deriving DecidableEq, Repr

end Config

structure Config where
  display : Config.Display := {}
  scaling : Config.Scaling := {}
  performance : Config.Performance := {}
  input : Config.Input := {}
  keyboard : Option Keyboard := none
  deriving DecidableEq, Repr

/-- Scale ratios are percentages; one that is not positive would leave no screen. -/
def validateScaleRatio (scaleRatio : Int) : Except Error Unit :=
  if 0 < scaleRatio then .ok () else .error (.config (.scaleRatio scaleRatio))

def Keyboard.validate (keyboard : Keyboard) : Except Error Unit :=
  if keyboard.keyWidthRatio.atMost (.zero false) || keyboard.keyHeightRatio.atMost (.zero false)
  then .error (.config .keyRatios)
  else .ok ()

namespace Config

def validate (config : Config) : Except Error Unit := do
  validateScaleRatio config.scaling.scaleRatio
  match config.keyboard with
  | some keyboard => keyboard.validate
  | none => return

end Config

end Handset
