import Handset.Queue.Cases
import Handset.Session.Laws

/-! How handlers end. Whatever a handler has done to the queue by the time it ends, whether it comes
back, fails or faults is to be seen in the log only: the queue is the same, and so is all that is
handled later. -/

namespace Handset

variable {σ α β : Type}

/-- What a handler does until it ends: one operation after the other, and which one may depend on all
answers so far. It may keep something of its own on the stage, and let other events be handled
before it goes on. A run in place that it has taken is released before it ends. -/
inductive Conduct (σ : Type)
  | done
  | keep (change : σ → σ) (next : σ → Conduct σ)
  | look (next : Queue Job → Conduct σ)
  | post (kind : EventKind Job) (next : PostOutcome → Conduct σ)
  | remove (p : Event Job → Bool) (next : Bool → Conduct σ)
  | flush (tag : EventTag) (reentrant : Bool) (next : FlushOutcome → Conduct σ)
  | release (tag : EventTag) (next : Conduct σ)
  | close (next : Conduct σ)
  | process (next : Bool → Conduct σ)

namespace Act

def keep (change : σ → σ) : Act σ σ := do
  let stage := (← get).stage
  modify fun s => { s with stage := change stage }
  return stage

def look : Act σ (Queue Job) :=
  return (← get).queue

def remove (p : Event Job → Bool) : Act σ Bool := do
  let (removed, queue) := (← get).queue.remove p
  modify fun s => { s with queue }
  return removed

def flush (tag : EventTag) (reentrant : Bool) : Act σ FlushOutcome := do
  let thread := (← get).thread
  let (outcome, queue) := (← get).queue.flush tag reentrant thread
  modify fun s => { s with queue }
  return outcome

def release (tag : EventTag) : Act σ Unit := do
  let thread := (← get).thread
  modifyQueue (·.finishInline tag thread)

end Act

/-- `process` handles the next event. -/
def Conduct.run (process : Act σ Bool) : Conduct σ → Act σ Unit
  | .done => return
  | .keep change next => do (next (← Act.keep change)).run process
  | .look next => do (next (← Act.look)).run process
  | .post kind next => do (next (← Act.post kind)).run process
  | .remove p next => do (next (← Act.remove p)).run process
  | .flush tag reentrant next => do (next (← Act.flush tag reentrant)).run process
  | .release tag next => do
    Act.release tag
    next.run process
  | .close next => do
    Act.close
    next.run process
  | .process next => do (next (← process)).run process

/-- What handlers do, event by event, and how they end: with no error, with one, or in a fault. -/
structure Handlers (σ : Type) where
  conduct : Event Job → Conduct σ
  ends : Event Job → Session σ → Except Fault (Option Failure)

/-- Handles an event, with handlers that nest at most `depth` deep. The events are recorded as they
come. -/
def Handlers.handle (handlers : Handlers σ) : Nat → Event Job → Act σ (Option Failure)
  | 0, _ => throw .nesting
  | depth + 1, event => do
    Act.note (.event event)
    (handlers.conduct event).run (Act.processNext (handlers.handle depth))
    let s ← get
    liftM (handlers.ends event s)

namespace Act

/-- Begun in sessions that differ in their logs, the actions leave such sessions. -/
def Leaves (act act' : Act σ α) : Prop :=
  ∀ s logs, ∃ logs', (act'.run.run { s with logs }).2 = { (act.run.run s).2 with logs := logs' }

/-- The results are the same too. -/
def Follows (act act' : Act σ α) : Prop :=
  ∀ s logs, ∃ logs',
    act'.run.run { s with logs } = ((act.run.run s).1, { (act.run.run s).2 with logs := logs' })

variable {act act' : Act σ α} {next next' : α → Act σ β}

/-- What sees nothing of the log follows itself. -/
theorem follows_of_run
    (ran : ∀ s logs,
      act.run.run { s with logs } = ((act.run.run s).1, { (act.run.run s).2 with logs })) :
    act.Follows act :=
  fun s logs => ⟨logs, ran s logs⟩

theorem Follows.bind (first : act.Follows act') (rest : ∀ a, (next a).Follows (next' a)) :
    (act >>= next).Follows (act' >>= next') := by
  intro s logs
  obtain ⟨logs₁, ran⟩ := first s logs
  simp only [run_bind, ran]
  cases act.run.run s with
  | mk result s₁ =>
    cases result with
    | error fault => exact ⟨logs₁, rfl⟩
    | ok a => exact rest a s₁ logs₁

theorem Follows.bind_leaves (first : act.Follows act') (rest : ∀ a, (next a).Leaves (next' a)) :
    (act >>= next).Leaves (act' >>= next') := by
  intro s logs
  obtain ⟨logs₁, ran⟩ := first s logs
  simp only [run_bind, ran]
  cases act.run.run s with
  | mk result s₁ =>
    cases result with
    | error fault => exact ⟨logs₁, rfl⟩
    | ok a => exact rest a s₁ logs₁

theorem follows_pure (a : α) : (pure a : Act σ α).Follows (pure a) :=
  follows_of_run fun _ _ => rfl

theorem follows_close : (close : Act σ Unit).Follows close := by
  intro s logs
  simp only [close, run_bind, run_get, run_modify]
  cases s.queue.close.1 with
  | none => exact ⟨logs, rfl⟩
  | some dropped =>
    cases dropped with
    | zero => exact ⟨logs, rfl⟩
    | succ n => exact ⟨logs.push _, rfl⟩

/-- The next event is handled with the same answer, whatever the results of the handlers. -/
theorem follows_processNext {handle handle' : Event Job → Act σ (Option Failure)}
    (leaves : ∀ event, (handle event).Leaves (handle' event)) :
    (processNext handle).Follows (processNext handle') := by
  intro s logs
  cases first : s.queue.next? with
  | none =>
    have first' : ({ s with logs } : Session σ).queue.next? = none := first
    refine ⟨logs, ?_⟩
    rw [run_processNext_of_none first, run_processNext_of_none first']
  | some pair =>
    obtain ⟨event, queue⟩ := pair
    obtain ⟨logs₁, left⟩ := leaves event { s with queue } logs
    cases ran : (handle event).run.run { s with queue } with
    | mk result s₁ =>
      cases ran' : (handle' event).run.run { s with queue, logs } with
      | mk result' s₁' =>
        rw [ran, ran'] at left
        obtain ⟨logs₂, ended⟩ := run_finishEvent event result s₁
        obtain ⟨logs₃, ended'⟩ := run_finishEvent event result' s₁'
        have first' : ({ s with logs } : Session σ).queue.next? = some (event, queue) := first
        -- The results are looked at for the log, and only there.
        rw [run_processNext first ran, run_processNext first' ran', ended, ended']
        refine ⟨logs₃, ?_⟩
        cases left
        rfl

theorem follows_drain {handle handle' : Event Job → Act σ (Option Failure)}
    (leaves : ∀ event, (handle event).Leaves (handle' event)) (limit : Nat) :
    (drain handle limit).Follows (drain handle' limit) := by
  induction limit with
  | zero => exact follows_pure 0
  | succ limit ih =>
    refine (follows_processNext leaves).bind fun more => ?_
    cases more with
    | false => exact follows_pure 0
    | true => exact ih.bind fun number => follows_pure _

end Act

/-- What is done to the queue follows, if what nests in it does. -/
theorem Conduct.follows_run {process process' : Act σ Bool} (follows : process.Follows process')
    (conduct : Conduct σ) : (conduct.run process).Follows (conduct.run process') := by
  induction conduct with
  | done => exact Act.follows_pure ()
  | keep change next ih => exact (Act.follows_of_run fun _ _ => rfl).bind ih
  | look next ih => exact (Act.follows_of_run fun _ _ => rfl).bind ih
  | post kind next ih => exact (Act.follows_of_run fun _ _ => rfl).bind ih
  | remove p next ih => exact (Act.follows_of_run fun _ _ => rfl).bind ih
  | flush tag reentrant next ih => exact (Act.follows_of_run fun _ _ => rfl).bind ih
  | release tag next ih => exact (Act.follows_of_run fun _ _ => rfl).bind fun _ => ih
  | close next ih => exact Act.follows_close.bind fun _ => ih
  | process next ih => exact follows.bind ih

namespace Handlers

variable (conduct : Event Job → Conduct σ)
  (ends ends' : Event Job → Session σ → Except Fault (Option Failure))

/-- Handlers that do the same leave the same, however deep they nest and however each one ends. -/
theorem leaves_handle (depth : Nat) (event : Event Job) :
    (handle ⟨conduct, ends⟩ depth event).Leaves (handle ⟨conduct, ends'⟩ depth event) := by
  induction depth generalizing event with
  | zero => exact fun s logs => ⟨logs, rfl⟩
  | succ depth ih =>
    have nested := Act.follows_processNext ih
    refine (Act.follows_of_run fun _ _ => rfl).bind_leaves fun _ => ?_
    refine ((conduct event).follows_run nested).bind_leaves fun _ => ?_
    -- What was done is over; an end changes nothing more.
    intro s logs
    simp only [run_bind, run_get, run_liftM]
    exact ⟨logs, rfl⟩

end Handlers

namespace Act

/-- The action has a result, whatever the session. -/
def Returns (act : Act σ α) : Prop :=
  ∀ s, ∃ a s', act.run.run s = (.ok a, s')

theorem Returns.bind {act : Act σ α} {next : α → Act σ β} (first : act.Returns)
    (rest : ∀ a, (next a).Returns) : (act >>= next).Returns := by
  intro s
  obtain ⟨a, s₁, ran⟩ := first s
  rw [run_bind, ran]
  exact rest a s₁

theorem returns_close : (close : Act σ Unit).Returns := by
  intro s
  simp only [close, run_bind, run_get, run_modify]
  cases s.queue.close.1 with
  | none => exact ⟨_, _, rfl⟩
  | some dropped => cases dropped <;> exact ⟨_, _, rfl⟩

/-- A handler that faults is no reason for the thread to stop. -/
theorem returns_processNext (handle : Event Job → Act σ (Option Failure)) :
    (processNext handle).Returns := by
  intro s
  cases first : s.queue.next? with
  | none => exact ⟨_, _, run_processNext_of_none first⟩
  | some pair =>
    obtain ⟨logs, ended⟩ := run_finishEvent pair.1 _ _
    exact ⟨_, _, (run_processNext first rfl).trans ended⟩

theorem returns_drain (handle : Event Job → Act σ (Option Failure)) (limit : Nat) :
    (drain handle limit).Returns := by
  induction limit with
  | zero => exact fun s => ⟨_, _, rfl⟩
  | succ limit ih =>
    refine (returns_processNext handle).bind fun more => ?_
    cases more with
    | false => exact fun s => ⟨_, _, rfl⟩
    | true => exact ih.bind fun number s => ⟨_, _, rfl⟩

/-- From whatever session, both actions have one result and leave one session but for the log. -/
def SameButLogs (act act' : Act σ α) : Prop :=
  ∀ s, ∃ a s' logs, act.run.run s = (.ok a, s') ∧ act'.run.run s = (.ok a, { s' with logs })

theorem Follows.sameButLogs {act act' : Act σ α} (follows : act.Follows act')
    (returns : act.Returns) : act.SameButLogs act' := by
  intro s
  obtain ⟨a, s', ran⟩ := returns s
  obtain ⟨logs, ran'⟩ := follows s s.logs
  rw [ran] at ran'
  exact ⟨a, s', logs, ran, ran'⟩

end Act

theorem Conduct.returns_run {process : Act σ Bool} (returns : process.Returns)
    (conduct : Conduct σ) : (conduct.run process).Returns := by
  induction conduct with
  | done => exact fun s => ⟨_, _, rfl⟩
  | keep change next ih => exact Act.Returns.bind (fun s => ⟨_, _, rfl⟩) ih
  | look next ih => exact Act.Returns.bind (fun s => ⟨_, _, rfl⟩) ih
  | post kind next ih => exact Act.Returns.bind (fun s => ⟨_, _, rfl⟩) ih
  | remove p next ih => exact Act.Returns.bind (fun s => ⟨_, _, rfl⟩) ih
  | flush tag reentrant next ih => exact Act.Returns.bind (fun s => ⟨_, _, rfl⟩) ih
  | release tag next ih => exact Act.Returns.bind (fun s => ⟨_, _, rfl⟩) fun _ => ih
  | close next ih => exact Act.returns_close.bind fun _ => ih
  | process next ih => exact returns.bind ih

namespace Handlers

variable {s : Session σ} {event : Event Job} {queue : Queue Job}

/-- The session in which a handler ends is what it has made of the one in which the event was taken;
the event is then over. -/
theorem run_processNext_handle (handlers : Handlers σ) (depth : Nat)
    (next : s.queue.next? = some (event, queue)) : ∃ worked logs,
      ((handlers.conduct event).run (Act.processNext (handlers.handle depth))).run.run
        { s with queue, notes := s.notes.push (.event event) } = (.ok (), worked) ∧
      (Act.processNext (handlers.handle (depth + 1))).run.run s =
        (.ok true, { worked with queue := worked.queue.finish event.tag, logs }) := by
  have returns := Act.returns_processNext (handlers.handle depth)
  obtain ⟨_, worked, ran⟩ := (handlers.conduct event).returns_run returns
    { s with queue, notes := s.notes.push (.event event) }
  have handled : (handlers.handle (depth + 1) event).run.run { s with queue } =
      (handlers.ends event worked, worked) := by
    have noted : (Act.note (.event event) : Act σ Unit).run.run { s with queue } =
        (.ok (), { s with queue, notes := s.notes.push (.event event) }) := rfl
    simp only [handle, run_bind, noted, ran, run_get, run_liftM]
  obtain ⟨logs, ended⟩ := Act.run_finishEvent event (handlers.ends event worked) worked
  exact ⟨worked, logs, ran, (Act.run_processNext next handled).trans ended⟩

/-- How handlers end makes no difference to the queue, nor to anything else but the log. The event
that was handled is over and counts once, and whatever is done in turn or in a loop has the same
answers, with the same events recorded in the same order. -/
theorem endings_invisible (conduct : Event Job → Conduct σ)
    (ends ends' : Event Job → Session σ → Except Fault (Option Failure)) (depth : Nat) :
    (∀ (s : Session σ) (event : Event Job) (rest : List (Event Job)), s.queue.closed = false →
      s.queue.events = event :: rest →
      ∃ worked logs logs',
        ((conduct event).run (Act.processNext (Handlers.handle ⟨conduct, ends⟩ depth))).run.run
          { s with
            queue := { s.queue.leave event.tag with
              events := rest, current := some (event.tag, event.id) }
            notes := s.notes.push (.event event) } = (.ok (), worked) ∧
        (Act.processNext (Handlers.handle ⟨conduct, ends⟩ (depth + 1))).run.run s =
          (.ok true, { worked with queue := worked.queue.finish event.tag, logs }) ∧
        (Act.processNext (Handlers.handle ⟨conduct, ends'⟩ (depth + 1))).run.run s =
          (.ok true, { worked with queue := worked.queue.finish event.tag, logs := logs' }) ∧
        (worked.queue.finish event.tag).current = none ∧
        ∀ tag, (worked.queue.finish event.tag).completed.count tag =
          worked.queue.completed.count tag + if event.tag = tag then 1 else 0) ∧
    (∀ course : Conduct σ,
      Act.SameButLogs (course.run (Act.processNext (Handlers.handle ⟨conduct, ends⟩ depth)))
        (course.run (Act.processNext (Handlers.handle ⟨conduct, ends'⟩ depth)))) ∧
    ∀ limit, Act.SameButLogs (Act.drain (Handlers.handle ⟨conduct, ends⟩ depth) limit)
      (Act.drain (Handlers.handle ⟨conduct, ends'⟩ depth) limit) := by
  have leaves := leaves_handle conduct ends ends'
  refine ⟨fun s event rest isOpen events => ?_, fun course => ?_, fun limit => ?_⟩
  · have next : s.queue.next? = some (event, { s.queue.leave event.tag with
        events := rest, current := some (event.tag, event.id) }) := by
      simp only [Queue.next?, isOpen, events]
      rfl
    obtain ⟨worked, logs, ran, ended⟩ := run_processNext_handle ⟨conduct, ends⟩ depth next
    obtain ⟨logs', ended'⟩ := Act.follows_processNext (leaves (depth + 1)) s s.logs
    rw [ended] at ended'
    have counts := Queue.count_complete worked.queue event.tag
    exact ⟨worked, logs, logs', ran, ended, ended', rfl, counts⟩
  · exact (course.follows_run (Act.follows_processNext (leaves depth))).sameButLogs
      (course.returns_run (Act.returns_processNext _))
  · exact (Act.follows_drain (leaves depth) limit).sameButLogs (Act.returns_drain _ limit)

/-- Two keys and a repaint are queued. -/
def keysAndPaint : Session Unit where
  stage := ()
  queue := ((({} : Queue Job).post (.key .pressed 1)).2.post (.key .pressed 2)).2.post .paint |>.2

/-- The first key posts an event and has the second handled before it goes on. -/
def nestingKey (event : Event Job) : Conduct Unit :=
  match event.kind with
  | .key _ 1 => .post .showNotify fun _ => .process fun _ => .done
  | _ => .done

/-- One key fails, the other faults. -/
def failingKeys (event : Event Job) (_ : Session Unit) : Except Fault (Option Failure) :=
  match event.kind with
  | .key _ 1 => .ok (some ⟨["key handler failed"]⟩)
  | .key _ 2 => .error (.raised (some "key handler panicked"))
  | _ => .ok none

theorem endings_invisible_failingKeys :
    keysAndPaint.queue.closed = false ∧
    keysAndPaint.queue.events = [⟨1, .key .pressed 1⟩, ⟨2, .key .pressed 2⟩, ⟨3, .paint⟩] ∧
    ∃ s logs, (Act.drain (Handlers.handle ⟨nestingKey, failingKeys⟩ 3) 10).run.run keysAndPaint =
        (.ok 3, s) ∧
      (Act.drain (Handlers.handle ⟨nestingKey, fun _ _ => .ok none⟩ 3) 10).run.run keysAndPaint =
        (.ok 3, { s with logs }) ∧
      s.queue.current = none ∧ s.queue.completed.count .key = 2 := by
  obtain ⟨-, -, drains⟩ := endings_invisible nestingKey failingKeys (fun _ _ => .ok none) 3
  obtain ⟨number, s, logs, ran, ran'⟩ := drains 10 keysAndPaint
  have three : ((Act.drain (Handlers.handle ⟨nestingKey, failingKeys⟩ 3) 10).run.run
    keysAndPaint).1 = .ok 3 := rfl
  have ended : ((Act.drain (Handlers.handle ⟨nestingKey, failingKeys⟩ 3) 10).run.run
    keysAndPaint).2.queue.current = none := rfl
  have both : ((Act.drain (Handlers.handle ⟨nestingKey, failingKeys⟩ 3) 10).run.run
    keysAndPaint).2.queue.completed.count .key = 2 := rfl
  rw [ran] at three ended both
  cases three
  exact ⟨rfl, rfl, s, logs, ran, ran', ended, both⟩

end Handlers

end Handset
