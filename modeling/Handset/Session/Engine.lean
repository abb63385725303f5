import Handset.Session.State

/-! Running scripts. A host says how events are handled and what a canvas answers; the engine runs
the steps that concern the queue and the threads, and ties the knot: bodies run steps again. -/

namespace Handset

/-- How a session handles events and requests. `presented` counts the frames shown so far, and
`service` runs or awaits the repaint that was asked for. -/
structure Host (σ : Type) where
  handle : Runner σ → Event Job → Act σ (Option Failure)
  perform : Runner σ → Request → Act σ Answer
  presented : σ → Nat
  service : Runner σ → Act σ Unit

namespace Host

variable {σ : Type}

/-- A dispatch ends after so many events, whatever is left. -/
def dispatchLimit : Nat := 100000

/-- The number of times that the last job of a dispatch comes back. -/
def lastJobs : Nat := 20

/-- Does the held steps of a dispatch on the thread that began it, posts the last job, and waits for a
repaint if that was asked for: one in progress will be over later, any other is run at once. -/
def hold (host : Host σ) (runner : Runner σ) (held : List Step) : Act σ Unit := do
  let session ← get
  match session.dispatch with
  | none => return
  | some dispatch =>
    set { session with
      painting := dispatch.painting
      thread := 0
      dispatch := some { dispatch with pending := none } }
    let answers ← held.mapM fun step => (runner.step step : Act σ StepAnswer)
    let _ ← Act.post (.task (.last lastJobs))
    let frames := host.presented (← get).stage
    let mut before := none
    let mut serviced := none
    if dispatch.service then
      if (← get).queue.inProgress .paint then before := some frames
      else
        host.service runner
        serviced := some (decide (frames < host.presented (← get).stage))
    modify fun s => { s with
      painting := session.painting
      thread := session.thread
      dispatch := some { dispatch with pending := none, answers, before, serviced } }

/-- Settles whether the repaint that a thread waits for was presented, once it is over. -/
def settleService (host : Host σ) : Act σ Unit :=
  modify fun s => match s.dispatch with
    | some { before := some frames, pending, service, painting, answers, .. } =>
      { s with dispatch := some {
          pending, service, painting, answers
          serviced := some (decide (frames < host.presented s.stage)) } }
    | _ => s

/-- Handles events on the second thread until there is none. -/
def dispatchAll (host : Host σ) (runner : Runner σ) : Nat → Act σ Unit
  | 0 => return
  | limit + 1 => do
    if ← Act.processNext (host.handle runner) then
      host.settleService
      host.dispatchAll runner limit

/-- Handles what is queued on a second thread, up to the gate; there the held steps are done on this
one, and then the rest is handled. If the gate is never reached the held steps are done after all
else. Then the queue is closed. -/
def dispatch (host : Host σ) (runner : Runner σ) (held : List Step) (holdPaint service : Bool) :
    Act σ Answer := do
  let session ← get
  set { session with
    painting := false
    thread := session.thread + 1
    dispatch := some {
      pending := if holdPaint then some held else none
      service
      painting := session.painting } }
  let _ ← Act.post (if holdPaint then .paint else .task (.gate held))
  host.dispatchAll runner dispatchLimit
  let entered := (← get).dispatch.any (·.answers.isSome)
  if !entered then
    host.hold runner held
    host.dispatchAll runner dispatchLimit
  Act.close
  let done ← get
  set { done with
    painting := session.painting, thread := session.thread, dispatch := session.dispatch }
  let report := done.dispatch
  return .dispatched entered ((report.bind (·.answers)).getD []) (report.bind (·.serviced))
    done.queue.closed done.queue.completed

/-- Flushes a tag. A run that is taken lasts while the held steps are done. -/
def flush (runner : Runner σ) (tag : EventTag) (reentrant : Bool) (held : List Step) :
    Act σ Answer := do
  let thread := (← get).thread
  let (outcome, queue) := (← get).queue.flush tag reentrant thread
  modify fun s => { s with queue }
  if outcome = .take then
    let answers ← held.mapM fun step => (runner.step step : Act σ StepAnswer)
    Act.modifyQueue (·.finishInline tag thread)
    return .took answers
  else return .flushed outcome

def interpret (host : Host σ) (runner : Runner σ) : Step → Act σ Answer
  | .post kind => return .posted (← Act.post kind)
  | .process => do
    let queue := (← get).queue
    if queue.events.isEmpty && !queue.closed then return .queueEmpty
    return .truth (← Act.processNext (host.handle runner))
  | .drain limit => return .number (← Act.drain (host.handle runner) limit)
  | .remove selection => do
    let (removed, queue) := (← get).queue.remove selection.selects
    modify fun s => { s with queue }
    return .truth removed
  | .flush tag reentrant held => flush runner tag reentrant held
  | .counts => return .counts (← get).queue
  | .inspect => return .events (← get).queue.events
  | .close => do
    Act.close
    return .nothing
  | .addRule rule => do
    modify fun s => { s with rules := s.rules ++ [rule] }
    return .nothing
  | .setPaint script => do
    modify fun s => { s with script }
    return .nothing
  | .perform body => do
    let _ ← Act.runBody runner body
    return .nothing
  | .dispatch held holdPaint service => host.dispatch runner held holdPaint service
  | .ask request => host.perform runner request

/-- Runs an action as a step: its fault is the answer, and what is recorded and logged while it lasts
belongs to it. -/
def answering (act : Act σ Answer) : StateM (Session σ) StepAnswer := do
  let outer := (← get).notes
  modify fun s => { s with notes := #[] }
  let result ← act.run
  let session ← get
  set { session with notes := outer, logs := #[] }
  return .mk result session.notes.toList session.logs.toList session.queue.size

/-- Runs a step with callbacks that nest at most `depth` deep. -/
def step (host : Host σ) : Nat → Step → StateM (Session σ) StepAnswer
  | 0, _ => answering (throw .nesting)
  | depth + 1, s =>
    let inner := host.step depth
    let runner : Runner σ := ⟨inner, host.hold ⟨inner, fun _ => return⟩⟩
    answering (host.interpret runner s)

/-- Callbacks have a stack of their own, which is not without end. -/
def depthLimit : Nat := 1000

/-- Runs a list of steps and gives their answers. -/
def run (host : Host σ) (session : Session σ) (steps : List Step) : List StepAnswer :=
  ((steps.mapM (host.step depthLimit)).run session).1

end Host

end Handset
