import Handset.Session.Script

/-! What a session shows: the answer to each step, what was recorded while it lasted, and what was
logged. -/

namespace Handset

inductive LogEntry
  | eventFailed (tag : EventTag) (id : Nat) (failure : Failure)
  | eventFaulted (tag : EventTag) (id : Nat) (fault : Fault)
  | closedWith (dropped : Nat)
  | paintFailed (failure : Failure)
  | paintFaulted (fault : Fault)
  | presentFailed (display : String) (error : Error)
  | flushIgnored
  deriving DecidableEq, Repr

/-- The line of the log, with its level. -/
def LogEntry.line : LogEntry → String
  | .eventFailed tag id failure => s!"ERROR EventQueue: {tag.name} #{id} failed: {failure.text}"
  | .eventFaulted tag id fault => s!"ERROR EventQueue: {tag.name} #{id} panicked: {fault.report}"
  | .closedWith dropped => s!"WARN EventQueue: Closed with {dropped} unprocessed events"
  | .paintFailed failure => s!"ERROR Canvas: paint failed: {failure.text}"
  | .paintFaulted fault => s!"ERROR Canvas: paint panicked: {fault.report}"
  | .presentFailed display error => s!"WARN Canvas: {display} present failed: {error.message}"
  | .flushIgnored => "WARN Canvas: flush_buffer() from inside paint ignored"

mutual

inductive Answer
  | nothing
  | truth (value : Bool)
  | number (value : Int)
  | text (value : String)
  | posted (outcome : PostOutcome)
  | queueEmpty
  | flushed (outcome : FlushOutcome)
  | took (held : List StepAnswer)
  | counts (queue : Queue Job)
  | events (events : List (Event Job))
  | picture (image : Option Image)
  | presented (frames shown : Nat)
  | rate (fps : Option Nat)
  | state (state : Canvas.State)
  | heldKeys (keys : HeldKeys)
  | action (result : Except Error (Option GameAction))
  | code (result : Except Error Int)
  | name (result : Except Error String)
  | accepted (result : Except Error Unit)
  | size (width height : Nat)
  | gameKeys (keys : HeldKeys) (queued : Nat)
  | drawn (answers : List DrawingAnswer)
  | dispatched (entered : Bool) (held : List StepAnswer) (serviced : Option Bool) (closed : Bool)
      (completed : Tally)

/-- What was recorded: events and calls as they came, and the answers of nested steps. -/
inductive Note
  | event (event : Event Job)
  | task (name : String)
  | nested (answers : List StepAnswer)
  | paint (width height : Int)
  | sizeChanged (width height : Int)
  | showNotify
  | hideNotify
  | key (action : KeyAction) (code : Int)
  | pointer (action : PointerAction) (x y : Int)
  | graphics (state : GraphicsState)
  | overlay (call : OverlayCall)

inductive StepAnswer
  | mk (result : Except Fault Answer) (notes : List Note) (logs : List LogEntry) (queued : Nat)

end

end Handset
