import Handset.Queue

/-! A queue among threads. Any thread may post and remove events, take the first one out to handle
it, take one out of its turn to run it in place, wait for such runs, and close the queue, also while
it handles an event. What a thread does under the lock of the queue is one operation, and the
operations of different threads follow each other in any order. -/

namespace Handset

/-- The ways out of the queue: to be handled in turn, to be run in place, or not to be run. -/
inductive Exit
  | popped | taken | removed | dropped
  deriving DecidableEq, Repr

/-- What is kept of an operation. A run in turn is `finished` and one in place `released`; `answered`
is what a thread is told that has waited for a run since there were so many deeds. -/
inductive Deed (Work : Type)
  | admitted (event : Event Work)
  | left (exit : Exit) (event : Event Work)
  | finished (event : Event Work)
  | released (event : Event Work)
  | answered (tag : EventTag) (since : Nat)

/-- An event that is being handled or run in place, with the thread that took it. -/
structure Run (Work : Type) where
  event : Event Work
  thread : Nat

/-- A thread that waits until a run of `tag` is over: `seen` are the runs that had ended when it
came, when there were `since` deeds. -/
structure Waiter where
  tag : EventTag
  seen : Nat
  since : Nat
  asleep : Bool := true
  deriving DecidableEq, Repr

/-- `inTurn` are the handlers at work, the newest first, and `inPlace` the runs in place. `signals`
counts the threads that have ended something and are yet to wake those who wait. -/
structure Traffic (Work : Type) where
  queue : Queue Work := {}
  inTurn : List (Run Work) := []
  inPlace : List (Run Work) := []
  waiters : List Waiter := []
  signals : Nat := 0
  log : List (Deed Work) := []

/-- A handler ends on its own thread, where only the newest can end; `release` ends a run in place.
A thread that waits may wake without a signal; `look` is what it does when it is awake. -/
inductive Operation (Work : Type)
  | post (kind : EventKind Work)
  | pop (thread : Nat)
  | finish (thread : Nat)
  | remove (p : Event Work → Bool)
  | flush (tag : EventTag) (reentrant : Bool) (thread : Nat)
  | release (i : Nat)
  | close
  | signal
  | wake (i : Nat)
  | look (i : Nat)

variable {Work : Type}

/-- The deeds by which events leave the queue. -/
def departures (exit : Exit) (events : List (Event Work)) : List (Deed Work) :=
  events.map (.left exit)

/-- The entry of a run in place in the registry of the queue. -/
def Run.entry (run : Run Work) : EventTag × Nat :=
  (run.event.tag, run.thread)

def Waiter.wake (waiter : Waiter) : Waiter :=
  { waiter with asleep := false }

/-- No run that it could wait for has ended since it came. -/
def Waiter.waits (waiter : Waiter) (queue : Queue Work) : Bool :=
  queue.completed.count waiter.tag == waiter.seen

namespace Traffic

def post (t : Traffic Work) (kind : EventKind Work) : Traffic Work :=
  match t.queue.post kind with
  | (.queued id, queue) => { t with queue, log := .admitted ⟨id, kind⟩ :: t.log }
  | (_, queue) => { t with queue }

theorem post_queue (t : Traffic Work) (kind : EventKind Work) :
    (t.post kind).queue = (t.queue.post kind).2 := by
  unfold post
  split <;> simp_all

theorem post_inTurn (t : Traffic Work) (kind : EventKind Work) :
    (t.post kind).inTurn = t.inTurn := by
  unfold post
  split <;> rfl

theorem post_inPlace (t : Traffic Work) (kind : EventKind Work) :
    (t.post kind).inPlace = t.inPlace := by
  unfold post
  split <;> rfl

def finish (t : Traffic Work) (run : Run Work) (inTurn : List (Run Work)) : Traffic Work :=
  { t with
    queue := t.queue.finish run.event.tag
    inTurn
    signals := t.signals + 1
    log := .finished run.event :: t.log }

/-- Makes sure that a run of the tag is over: waits for it, or takes an event out to be run in
place. -/
def flush (t : Traffic Work) (tag : EventTag) (reentrant : Bool) (thread : Nat) : Traffic Work :=
  match t.queue.flush tag reentrant thread, t.queue.events.find? (·.tag == tag) with
  | (.busy seen, queue), _ =>
    { t with queue, waiters := t.waiters ++ [{ tag, seen, since := t.log.length }] }
  | (.take, queue), some event =>
    { t with
      queue
      inPlace := t.inPlace ++ [⟨event, thread⟩]
      log := .left .taken event :: t.log }
  | (_, queue), _ => { t with queue }

def release (t : Traffic Work) (run : Run Work) (inPlace : List (Run Work)) : Traffic Work :=
  { t with
    queue := t.queue.finishInline run.event.tag run.thread
    inPlace
    signals := t.signals + 1
    log := .released run.event :: t.log }

def close (t : Traffic Work) : Traffic Work :=
  match t.queue.close with
  | (none, queue) => { t with queue }
  | (some _, queue) =>
    { t with
      queue, signals := t.signals + 1, log := departures .dropped t.queue.events ++ t.log }

theorem close_queue (t : Traffic Work) : t.close.queue = t.queue.close.2 := by
  unfold close
  split <;> simp_all

theorem close_inTurn (t : Traffic Work) : t.close.inTurn = t.inTurn := by
  unfold close
  split <;> rfl

theorem close_inPlace (t : Traffic Work) : t.close.inPlace = t.inPlace := by
  unfold close
  split <;> rfl

/-- A thread that is awake goes on if a run has ended that it could wait for, and else sleeps. -/
def look (t : Traffic Work) (i : Nat) (waiter : Waiter) : Traffic Work :=
  if waiter.waits t.queue then { t with waiters := t.waiters.set i { waiter with asleep := true } }
  else
    { t with
      waiters := t.waiters.eraseIdx i, log := .answered waiter.tag waiter.since :: t.log }

/-- An operation that cannot be made now has no result. -/
def step (t : Traffic Work) : Operation Work → Option (Traffic Work)
  | .post kind => some (t.post kind)
  | .pop thread => t.queue.next?.map fun (event, queue) =>
    { t with queue, inTurn := ⟨event, thread⟩ :: t.inTurn, log := .left .popped event :: t.log }
  | .finish thread => (t.inTurn.find? (·.thread == thread)).map fun run =>
    t.finish run (t.inTurn.eraseP (·.thread == thread))
  | .remove p => some { t with
      queue := (t.queue.remove p).2
      log := departures .removed (t.queue.events.filter p) ++ t.log }
  | .flush tag reentrant thread => some (t.flush tag reentrant thread)
  | .release i => t.inPlace[i]?.map fun run => t.release run (t.inPlace.eraseIdx i)
  | .close => some t.close
  | .signal =>
    if t.signals = 0 then none
    else some { t with signals := t.signals - 1, waiters := t.waiters.map Waiter.wake }
  | .wake i => t.waiters[i]?.map fun waiter => { t with waiters := t.waiters.set i waiter.wake }
  | .look i => t.waiters[i]?.bind fun waiter => if waiter.asleep then none else some (t.look i waiter)

end Traffic

/-- Which operations may be made when. -/
abbrev Discipline (Work : Type) := Traffic Work → Operation Work → Bool

namespace Discipline

/-- Any operation at any time, by any thread, inside and outside of handlers. -/
def free : Discipline Work
  | _, _ => true

/-- No event is taken out while another one is handled. -/
def oneByOne : Discipline Work
  | t, .pop _ => t.inTurn.isEmpty
  | _, _ => true

end Discipline

namespace Traffic

/-- Some operations make the one of the other. -/
inductive Leads (rule : Discipline Work) (t : Traffic Work) : Traffic Work → Prop
  | refl : Leads rule t t
  | step {t₁ t₂ : Traffic Work} {operation : Operation Work} :
      Leads rule t t₁ → rule t₁ operation → t₁.step operation = some t₂ → Leads rule t t₂

/-- What operations make of an empty queue. -/
abbrev Reaches (rule : Discipline Work) : Traffic Work → Prop :=
  Leads rule {}

variable {rule : Discipline Work} {t t₁ t₂ t' : Traffic Work}

theorem Leads.trans (first : Leads rule t t₁) (second : Leads rule t₁ t₂) : Leads rule t t₂ := by
  induction second with
  | refl => exact first
  | step _ allowed made ih => exact ih.step allowed made

theorem Leads.one {operation : Operation Work} (allowed : rule t operation)
    (made : t.step operation = some t') : Leads rule t t' :=
  .step .refl allowed made

/-- A stricter discipline is no more than a freer one. -/
theorem Leads.free (leads : Leads rule t t') : Leads Discipline.free t t' := by
  induction leads with
  | refl => exact .refl
  | step _ _ made ih => exact ih.step rfl made

/-- Makes the operations one after the other, as far as the discipline allows them. -/
def run (rule : Discipline Work) (t : Traffic Work) : List (Operation Work) → Option (Traffic Work)
  | [] => some t
  | operation :: operations =>
    if rule t operation then (t.step operation).bind (run rule · operations) else none

theorem leads_run {operations : List (Operation Work)} (made : t.run rule operations = some t') :
    Leads rule t t' := by
  induction operations generalizing t with
  | nil =>
    cases made
    exact .refl
  | cons operation operations ih =>
    simp only [run] at made
    split at made
    · rename_i allowed
      obtain ⟨t₁, first, rest⟩ := Option.bind_eq_some_iff.mp made
      exact (Leads.one allowed first).trans (ih rest)
    · cases made

end Traffic

end Handset
