import Handset.Session.Game
import Handset.Session.Input

/-! The host of canvas sessions: what the canvas does with each event, and what it answers to each
request. -/

namespace Handset

namespace Stage

open Handset.Act (post postAll)

/-- Handles an event. Only what the application does can fault; errors of a paint are logged where
they come up. -/
def handle (runner : Runner Stage) (event : Event Job) : Act (Option Failure) := do
  match event.kind with
  | .paint => paintCycle runner
  | .key action code => call runner (.key action) (.key action code) (some code)
  | .pointer action _ x y => call runner (.pointer action) (.pointer action x.round y.round) none
  | .sizeChanged width height => call runner .sizeChanged (.sizeChanged width height) none
  | .displayResized width height => displayResized runner width height
  | .showNotify => do
    modifyCanvas fun canvas => { canvas with shown := true }
    call runner .showNotify .showNotify none
  | .hideNotify => do
    modifyCanvas fun canvas => { canvas with shown := false }
    call runner .hideNotify .hideNotify none
  | .task job => Act.runJob runner job
  return none

def done (act : Act Unit) : Act Answer := do
  act
  return .nothing

def change (f : Canvas → Canvas) : Act Answer :=
  done (modifyCanvas f)

/-- Repaints some times over. -/
def repaintTimes : Nat → Act Unit
  | 0 => return
  | times + 1 => do
    repaint
    repaintTimes times

/-- Only a positive scale ratio is taken. -/
def setScale (scaleToFit keepAspectRatio : Bool) (scaleRatio : Int) : Act Answer := do
  match (← theCanvas).setScale scaleToFit keepAspectRatio scaleRatio with
  | .ok canvas =>
    setCanvas canvas
    return .accepted (.ok ())
  | .error error => return .accepted (.error error)

def perform (runner : Runner Stage) : Request → Act Answer
  | .repaint times => done (repaintTimes times)
  | .repaintRegion _ => done repaint
  | .serviceRepaints => done (serviceRepaints runner)
  | .compose => done compose
  | .flushBuffer image => done (flushBuffer image)
  | .snapshot => return .picture (← snapshot)
  | .lastFrame => return .picture (← theCanvas).frame.display.lastFrame
  | .presented => return .presented (← presentedFrames) (← theCanvas).frame.display.shown
  | .fps => return .rate (← fps)
  | .isPainting => return .truth (← get).painting
  | .key action code => done (postKey action code)
  | .hostKeyDown host repeated =>
    return .truth (← hostKey (if repeated then .repeated else .pressed) host)
  | .hostKeyUp host => return .truth (← hostKey .released host)
  | .pointer action pointer x y => done (hostPointer action pointer x y)
  | .surfaceCreated => done (postAll [.showNotify])
  | .surfaceDestroyed => done (postAll [.hideNotify])
  | .surfaceChanged width height => done (surfaceChanged width height)
  | .setFullscreen fullscreen => done (setFullscreen fullscreen)
  | .setVirtualSize width height => change (·.setVirtualSize width height)
  | .setScale fit aspect ratio => setScale fit aspect ratio
  | .setFilter filter => change (·.setFilter filter)
  | .setFpsLimit fpsLimit => do
    modifyCanvas (·.setFpsLimit fpsLimit)
    return .number (← theCanvas).limiter.fpsLimit
  | .setTouchInput touchInput => change (·.setTouchInput touchInput)
  | .setHardwareAcceleration enabled parallel => change (·.setHardwareAcceleration enabled parallel)
  | .setKeyLayout keyLayout => change fun canvas => { canvas with keyLayout }
  | .setHostKeys hostKeys => change fun canvas => { canvas with hostKeys }
  | .setBackground rgb => change (·.setBackground rgb)
  | .setOverlay overlay => done (setOverlay overlay)
  | .state => return .state (← theCanvas).state
  | .heldKeys => return .heldKeys (← theCanvas).held
  | .gameAction code => return .action ((← theCanvas).keyLayout.gameAction code)
  | .keyCode action => return .code ((← theCanvas).keyLayout.keyCode action)
  | .keyName code => return .name ((← theCanvas).keyLayout.keyName code)
  | .debugText => return .text (← theCanvas).debugText
  | .createGame suppressKeys => do
    let buffer ← createGame suppressKeys
    return .size buffer.width buffer.height
  | .drawGame drawings => return .drawn (← drawGame drawings)
  | .flushGame => done flushGame
  | .flushGameRegion _ => done flushGame
  | .gameKeys => return .gameKeys (← theCanvas).held ((← get).queue.queued.count .key)
  | .paintGame image drawings => return .picture (some (← paintGame image drawings))

end Stage

/-- The host of a session with a canvas. -/
def Host.stage : Host Stage where
  handle := Stage.handle
  perform := Stage.perform
  presented stage := stage.canvas.frame.presented
  service := Stage.serviceRepaints

end Handset
