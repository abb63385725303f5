import Handset.Event

/-! The queue of events. One thread takes events out in order and handles them; any thread may post
events, remove queued ones, or take one out of turn to run it in place. Each operation is one step:
nothing is handled while it lasts. -/

namespace Handset

/-- A number for each tag. -/
structure Tally where
  counts : Vector Nat 8 := .replicate 8 0
  deriving DecidableEq, Repr

namespace Tally

def count (tally : Tally) (tag : EventTag) : Nat :=
  tally.counts[tag.index]

def adjust (tally : Tally) (tag : EventTag) (f : Nat → Nat) : Tally :=
  ⟨tally.counts.set tag.index (f (tally.count tag))⟩

@[simp] theorem count_zero (tag : EventTag) : ({} : Tally).count tag = 0 := by
  cases tag <;> rfl

theorem count_adjust (tally : Tally) (tag other : EventTag) (f : Nat → Nat) :
    (tally.adjust tag f).count other
      = if tag = other then f (tally.count tag) else tally.count other := by
  have h : (tag.index : Nat) = (other.index : Nat) ↔ tag = other := by
    rw [← Fin.ext_iff, EventTag.index_inj]
  simp only [count, adjust, Fin.getElem_fin, Vector.getElem_set, h]

end Tally

/-- What became of a post. -/
inductive PostOutcome
  | queued (id : Nat)
  | coalesced
  | closed
  deriving DecidableEq, Repr

/-- What a thread is told that wants a run of some tag to be over. -/
inductive FlushOutcome
  | reentrant
  | busy (seen : Nat)
  | take
  | idle
  deriving DecidableEq, Repr

/-- `queued` counts the queued events of each tag and `completed` the runs that ended, in place or
in turn. `current` is the event that is being handled in turn; `inlineRuns` are the runs in place,
each with its thread. -/
structure Queue (Work : Type) where
  events : List (Event Work) := []
  current : Option (EventTag × Nat) := none
  queued : Tally := {}
  completed : Tally := {}
  inlineRuns : List (EventTag × Nat) := []
  lastId : Nat := 0
  closed : Bool := false

namespace Queue

variable {Work : Type}

def size (q : Queue Work) : Nat :=
  q.events.length

def enter (q : Queue Work) (tag : EventTag) : Queue Work :=
  { q with queued := q.queued.adjust tag (· + 1) }

def leave (q : Queue Work) (tag : EventTag) : Queue Work :=
  { q with queued := q.queued.adjust tag (· - 1) }

def complete (q : Queue Work) (tag : EventTag) : Queue Work :=
  { q with completed := q.completed.adjust tag (· + 1) }

/-- An event of this tag would be the same as a queued one, or could not be placed behind the
last. -/
def coalesces (q : Queue Work) (tag : EventTag) : Bool :=
  q.events.any tag.isDuplicate ||
    match q.events.getLast? with
    | some last => !tag.placeableAfter last
    | none => false

/-- Appends an event, unless the queue is closed or holds the same event already. -/
def post (q : Queue Work) (kind : EventKind Work) : PostOutcome × Queue Work :=
  if q.closed then (.closed, q)
  else if q.coalesces kind.tag then (.coalesced, q)
  else
    let event : Event Work := ⟨q.lastId + 1, kind⟩
    let q := q.enter event.tag
    (.queued event.id, { q with events := q.events ++ [event], lastId := event.id })

/-- Takes out the first event and makes it the current one. -/
def next? (q : Queue Work) : Option (Event Work × Queue Work) :=
  if q.closed then none
  else match q.events with
    | [] => none
    | event :: rest =>
      let q := q.leave event.tag
      some (event, { q with events := rest, current := some (event.tag, event.id) })

/-- The current event has been handled, well or not. -/
def finish (q : Queue Work) (tag : EventTag) : Queue Work :=
  { q.complete tag with current := none }

def inProgress (q : Queue Work) (tag : EventTag) : Bool :=
  (match q.current with
    | some (current, _) => current == tag
    | none => false) ||
  q.inlineRuns.any (·.1 == tag)

/-- Removes the queued events that satisfy `p`; the others keep their order. -/
def remove (q : Queue Work) (p : Event Work → Bool) : Bool × Queue Work :=
  let removed := q.events.filter p
  let kept := { q with events := q.events.filter fun event => !p event }
  (!removed.isEmpty, removed.foldl (fun q event => q.leave event.tag) kept)

/-- Starts to make sure that a run of `tag` is over: a caller inside such a run need do nothing, one
in progress must be waited for, and a queued event is taken out to be run in place. -/
def flush (q : Queue Work) (tag : EventTag) (reentrant : Bool) (thread : Nat) :
    FlushOutcome × Queue Work :=
  if reentrant then (.reentrant, q)
  else if q.inProgress tag then (.busy (q.completed.count tag), q)
  else if q.events.any (·.tag == tag) then
    (.take, { q.leave tag with
      events := q.events.eraseP (·.tag == tag)
      inlineRuns := q.inlineRuns ++ [(tag, thread)] })
  else (.idle, q)

/-- Takes the first such run out; the last one takes its place. -/
def unregister (runs : List (EventTag × Nat)) (run : EventTag × Nat) : List (EventTag × Nat) :=
  match runs.idxOf? run, runs.getLast? with
  | some i, some last => (runs.set i last).dropLast
  | _, _ => runs

@[simp] theorem unregister_singleton (run : EventTag × Nat) : unregister [run] run = [] := by
  simp [unregister, List.idxOf?_cons]

/-- A run in place is over. -/
def finishInline (q : Queue Work) (tag : EventTag) (thread : Nat) : Queue Work :=
  { q.complete tag with inlineRuns := unregister q.inlineRuns (tag, thread) }

/-- Closes the queue and drops what is queued. The result is the number of events dropped, if the
queue was open. -/
def close (q : Queue Work) : Option Nat × Queue Work :=
  if q.closed then (none, q)
  else (some q.size, { q with events := [], queued := {}, closed := true })

end Queue

end Handset
