import Handset.Config
import Handset.Geometry.Layout

/-! The settings of a canvas: what the next layout and the next frame depend on. -/

namespace Handset

structure Settings where
  displayWidth : Int
  displayHeight : Int
  virtualWidth : Int
  virtualHeight : Int
  fullscreen : Bool
  scaleToFit : Bool
  keepAspectRatio : Bool
  scaleRatio : Int
  keyboard : Option Keyboard
  filter : Bool
  touchInput : Bool
  hardwareAcceleration : Bool
  parallelRedraw : Bool
  background : UInt32
  deriving DecidableEq, Repr

namespace Settings

/-- A colour with nothing shining through. -/
def solid (rgb : UInt32) : UInt32 :=
  0xFF000000 ||| rgb

def ofConfig (config : Config) (displayWidth displayHeight : Int) : Settings where
  displayWidth := displayWidth
  displayHeight := displayHeight
  virtualWidth := config.display.virtualWidth
  virtualHeight := config.display.virtualHeight
  fullscreen := config.display.forceFullscreen
  scaleToFit := config.scaling.scaleToFit
  keepAspectRatio := config.scaling.keepAspectRatio
  scaleRatio := config.scaling.scaleRatio
  keyboard := config.keyboard
  filter := config.scaling.filter
  touchInput := config.input.touchInput
  hardwareAcceleration := config.performance.hardwareAcceleration
  parallelRedraw := config.performance.parallelRedraw
  background := solid config.display.backgroundColor

def sizing (settings : Settings) : Except Fault Sizing := do
  let reservedHeight ← match settings.keyboard with
    | some keyboard => keyboard.reservedHeight settings.displayWidth
    | none => pure 0
  return {
    displayWidth := settings.displayWidth
    displayHeight := settings.displayHeight
    virtualWidth := settings.virtualWidth
    virtualHeight := settings.virtualHeight
    fullscreen := settings.fullscreen
    scaleToFit := settings.scaleToFit
    keepAspectRatio := settings.keepAspectRatio
    scaleRatio := settings.scaleRatio
    reservedHeight }

def layout (settings : Settings) : Except Fault ScreenLayout := do
  (← settings.sizing).layout

end Settings

end Handset
