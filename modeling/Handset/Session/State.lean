import Handset.Session.Journal

/-! A session: a queue and what its events are handled on, the scripts that stand for the
application, and the journal of what happens. An action changes the session and may end in a fault;
what it did before the fault stays done. -/

namespace Handset

/-- A dispatch under way. `pending` are the held steps as long as a repaint is to hold them, `answers`
those of the held steps once they were done. `painting` says whether the thread that does them was
painting when the dispatch began. `before` counts the frames presented when that thread began to
wait for a repaint. -/
structure Dispatch where
  pending : Option (List Step)
  service : Bool
  painting : Bool
  answers : Option (List StepAnswer) := none
  before : Option Nat := none
  serviced : Option Bool := none

/-- `painting` holds of the thread at hand while it is inside the application's paint. The clock goes
on only while somebody waits. -/
structure Session (σ : Type) where
  stage : σ
  queue : Queue Job := {}
  rules : List Rule := []
  script : List PaintItem := PaintItem.standard
  notes : Array Note := #[]
  logs : Array LogEntry := #[]
  painting : Bool := false
  thread : Nat := 0
  clock : Nat := 0
  dispatch : Option Dispatch := none

abbrev Act (σ : Type) := ExceptT Fault (StateM (Session σ))

/-- How steps are run from inside a handler: one step, and the held steps of a dispatch. -/
structure Runner (σ : Type) where
  step : Step → StateM (Session σ) StepAnswer
  hold : List Step → Act σ Unit

namespace Act

variable {σ α : Type}

/-- Runs an action; its fault is an answer like another. -/
def attempt (act : Act σ α) : Act σ (Except Fault α) :=
  ExceptT.lift act.run

def note (entry : Note) : Act σ Unit :=
  modify fun s => { s with notes := s.notes.push entry }

def log (entry : LogEntry) : Act σ Unit :=
  modify fun s => { s with logs := s.logs.push entry }

def modifyQueue (f : Queue Job → Queue Job) : Act σ Unit :=
  modify fun s => { s with queue := f s.queue }

def post (kind : EventKind Job) : Act σ PostOutcome := do
  let (outcome, queue) := (← get).queue.post kind
  modify fun s => { s with queue }
  return outcome

def postAll (kinds : List (EventKind Job)) : Act σ Unit :=
  kinds.forM fun kind => do let _ ← post kind

def close : Act σ Unit := do
  let (dropped, queue) := (← get).queue.close
  modify fun s => { s with queue }
  match dropped with
  | none => return
  | some 0 => return
  | some n => log (.closedWith n)

/-- Runs the steps of a body and ends as it says. -/
def runBody (runner : Runner σ) : Body → Act σ (Option Failure)
  | .mk steps ending => do
    match steps with
    | some steps =>
      let answers ← steps.mapM fun step => (runner.step step : Act σ StepAnswer)
      note (.nested answers)
    | none => pure ()
    match ending with
    | .done => return none
    | .fail failure => return some failure
    | .raise text => throw (.raised text)

/-- Runs the first rule that is set off, if there is one. -/
def runRule (runner : Runner σ) (trigger : Trigger) (code : Option Int) :
    Act σ (Option Failure) := do
  match Rule.fire trigger code (← get).rules with
  | none => return none
  | some (body, rules) =>
    modify fun s => { s with rules }
    runBody runner body

/-- Runs posted work. The last job of a dispatch posts itself again as long as there is more to do,
and in the end closes the queue. -/
def runJob (runner : Runner σ) : Job → Act σ Unit
  | .named name body => do
    note (.task name)
    let _ ← runBody runner body
  | .gate held => runner.hold held
  | .last left => do
    if (← get).queue.events.isEmpty then return
    match left with
    | 0 => close
    | left + 1 => let _ ← post (.task (.last left))

/-- Lets a repaint hold the steps of a dispatch that wants it so. -/
def holdPending (runner : Runner σ) : Act σ Unit := do
  match (← get).dispatch with
  | some { pending := some held, .. } => runner.hold held
  | _ => return

/-- Takes the next event out of the queue and handles it. Errors and faults are logged, and the event
is over in any case. The answer is whether there was one. -/
def processNext (handle : Event Job → Act σ (Option Failure)) : Act σ Bool := do
  match (← get).queue.next? with
  | none => return false
  | some (event, queue) =>
    modify fun s => { s with queue }
    match ← attempt (handle event) with
    | .ok none => pure ()
    | .ok (some failure) => log (.eventFailed event.tag event.id failure)
    | .error fault => log (.eventFaulted event.tag event.id fault)
    modifyQueue (·.finish event.tag)
    return true

/-- Handles events until there is none, and no more than `limit`. The answer is their number. -/
def drain (handle : Event Job → Act σ (Option Failure)) : Nat → Act σ Nat
  | 0 => return 0
  | limit + 1 => do
    if ← processNext handle then return (← drain handle limit) + 1
    else return 0

end Act

end Handset
