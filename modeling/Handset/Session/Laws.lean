import Handset.Session.State

/-! What an action makes of a session, step by step. -/

namespace Handset

variable {σ α β : Type}

theorem run_bind (act : Act σ α) (next : α → Act σ β) (s : Session σ) :
    (act >>= next).run.run s = match act.run.run s with
      | (.ok a, s') => (next a).run.run s'
      | (.error fault, s') => (.error fault, s') := by
  simp only [ExceptT.run_bind, StateT.run_bind]
  cases act.run.run s with
  | mk result s' => cases result <;> rfl

theorem run_get (s : Session σ) : (get : Act σ (Session σ)).run.run s = (.ok s, s) :=
  rfl

theorem run_set (s s' : Session σ) : (set s' : Act σ PUnit).run.run s = (.ok (), s') :=
  rfl

theorem run_modify (f : Session σ → Session σ) (s : Session σ) :
    (modify f : Act σ PUnit).run.run s = (.ok (), f s) :=
  rfl

theorem run_attempt (act : Act σ α) (s : Session σ) :
    (Act.attempt act).run.run s = (.ok (act.run.run s).1, (act.run.run s).2) :=
  rfl

theorem run_liftM (result : Except Fault α) (s : Session σ) :
    (liftM result : Act σ α).run.run s = (result, s) := by
  cases result <;> rfl

namespace Act

/-- What is left of the handling of an event: its errors are logged, and it is over. -/
def finishEvent (event : Event Job) (result : Except Fault (Option Failure)) : Act σ Bool := do
  match result with
  | .ok none => pure ()
  | .ok (some failure) => log (.eventFailed event.tag event.id failure)
  | .error fault => log (.eventFaulted event.tag event.id fault)
  modifyQueue (·.finish event.tag)
  return true

theorem run_finishEvent (event : Event Job) (result : Except Fault (Option Failure))
    (s : Session σ) : ∃ logs, (finishEvent event result).run.run s =
      (.ok true, { s with queue := s.queue.finish event.tag, logs }) := by
  cases result with
  | error fault => exact ⟨_, rfl⟩
  | ok failure => cases failure <;> exact ⟨_, rfl⟩

variable {handle : Event Job → Act σ (Option Failure)} {s s' : Session σ}

theorem run_processNext_of_none (none : s.queue.next? = none) :
    (processNext handle).run.run s = (.ok false, s) := by
  simp only [processNext, run_bind, run_get, none]
  rfl

theorem run_processNext {event : Event Job} {queue : Queue Job}
    (next : s.queue.next? = some (event, queue)) {result : Except Fault (Option Failure)}
    (ran : (handle event).run.run { s with queue } = (result, s')) :
    (processNext handle).run.run s = (finishEvent event result).run.run s' := by
  simp only [processNext, run_bind, run_get, next, run_modify, run_attempt, ran]
  cases result with
  | error fault => rfl
  | ok failure => cases failure <;> rfl

end Act

end Handset
