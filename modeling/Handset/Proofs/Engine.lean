import Handset.Queue.Cases
import Handset.Session.Engine
import Handset.Session.Laws

/-! What holds of every session. A relation between sessions that is kept by what the engine does to
the queue, and by what the host does, is kept by every step, also where handlers call back, fail, or
fault. -/

namespace Handset

variable {σ α β : Type} {R : Session σ → Session σ → Prop}

/-- The session and what the action makes of it are in relation, however the action ends. -/
def ObeysAt (R : Session σ → Session σ → Prop) (act : Act σ α) (s : Session σ) : Prop :=
  R s (act.run.run s).2

def Obeys (R : Session σ → Session σ → Prop) (act : Act σ α) : Prop :=
  ∀ s, ObeysAt R act s

/-- A relation that sees the stage and the queue only, and that what the engine does to a queue is
in: an event is over after it was handled, and a run that was taken is over after it was made. -/
structure Enduring (R : Session σ → Session σ → Prop) : Prop where
  quiet {s s' : Session σ} (stage : s'.stage = s.stage) (queue : s'.queue = s.queue) : R s s'
  trans {s s₁ s' : Session σ} (first : R s s₁) (second : R s₁ s') : R s s'
  post (s : Session σ) (kind : EventKind Job) : R s { s with queue := (s.queue.post kind).2 }
  close (s : Session σ) : R s { s with queue := s.queue.close.2 }
  remove (s : Session σ) (p : Event Job → Bool) : R s { s with queue := (s.queue.remove p).2 }
  handled {s s' : Session σ} {event : Event Job} {queue : Queue Job}
    (first : s.queue.next? = some (event, queue)) (handles : R { s with queue } s') :
    R s { s' with queue := s'.queue.finish event.tag }
  taken {s s' : Session σ} {tag : EventTag} {reentrant : Bool} {queue : Queue Job}
    (flushed : s.queue.flush tag reentrant s.thread = (.take, queue))
    (runs : R { s with queue } s') :
    R s { s' with queue := s'.queue.finishInline tag s.thread }

section Actions

variable {act : Act σ α} {next : α → Act σ β} {s : Session σ} {runner : Runner σ}
  (enduring : Enduring R)

include enduring

theorem ObeysAt.bind (first : ObeysAt R act s) (rest : ∀ a, Obeys R (next a)) :
    ObeysAt R (act >>= next) s := by
  unfold ObeysAt at first ⊢
  rw [run_bind]
  cases ran : act.run.run s with
  | mk result s' =>
    rw [ran] at first
    cases result with
    | ok a => exact enduring.trans first (rest a s')
    | error fault => exact first

theorem Obeys.bind (first : Obeys R act) (rest : ∀ a, Obeys R (next a)) :
    Obeys R (act >>= next) :=
  fun s => (first s).bind enduring rest

/-- What comes after a result depends on the result. -/
theorem ObeysAt.liftM {result : Except Fault α}
    (rest : ∀ a, result = .ok a → ObeysAt R (next a) s) :
    ObeysAt R (liftM result >>= next) s := by
  unfold ObeysAt at rest ⊢
  rw [run_bind, run_liftM]
  cases result with
  | error fault => exact enduring.quiet rfl rfl
  | ok a => exact rest a rfl

theorem obeys_pure (a : α) : Obeys R (pure a : Act σ α) :=
  fun _ => enduring.quiet rfl rfl

theorem obeys_throw (fault : Fault) : Obeys R (throw fault : Act σ α) :=
  fun _ => enduring.quiet rfl rfl

omit enduring in
theorem obeys_attempt (obeys : Obeys R act) : Obeys R (Act.attempt act) :=
  obeys

omit enduring in
theorem obeys_get {next : Session σ → Act σ α} (rest : ∀ s, ObeysAt R (next s) s) :
    Obeys R (get >>= next) :=
  rest

theorem obeys_modify {f : Session σ → Session σ} (stage : ∀ s, (f s).stage = s.stage)
    (queue : ∀ s, (f s).queue = s.queue) : Obeys R (modify f : Act σ Unit) :=
  fun s => enduring.quiet (stage s) (queue s)

theorem obeys_note (entry : Note) : Obeys R (Act.note entry : Act σ Unit) :=
  obeys_modify enduring (fun _ => rfl) fun _ => rfl

theorem obeys_log (entry : LogEntry) : Obeys R (Act.log entry : Act σ Unit) :=
  obeys_modify enduring (fun _ => rfl) fun _ => rfl

theorem obeys_post (kind : EventKind Job) : Obeys R (Act.post kind : Act σ PostOutcome) :=
  fun s => enduring.post s kind

theorem obeys_forM {items : List α} {f : α → Act σ Unit} (each : ∀ a, Obeys R (f a)) :
    Obeys R (items.forM f) := by
  induction items with
  | nil => exact obeys_pure enduring ()
  | cons item items ih => exact (each item).bind enduring fun _ => ih

theorem obeys_postAll (kinds : List (EventKind Job)) : Obeys R (Act.postAll kinds : Act σ Unit) :=
  obeys_forM enduring fun kind =>
    (obeys_post enduring kind).bind enduring fun _ => obeys_pure enduring ()

theorem obeys_close : Obeys R (Act.close : Act σ Unit) := by
  apply obeys_get
  intro s
  have closed : ObeysAt R (modify fun s' => { s' with queue := s.queue.close.2 } : Act σ Unit) s :=
    enduring.close s
  apply closed.bind enduring
  intro _
  split
  · exact obeys_pure enduring ()
  · exact obeys_pure enduring ()
  · exact obeys_log enduring _

/-- A runner whose steps keep to the relation, the held ones too. -/
structure Runner.Obeys (R : Session σ → Session σ → Prop) (runner : Runner σ) : Prop where
  step : ∀ step, Handset.Obeys R (liftM (runner.step step) : Act σ StepAnswer)
  hold : ∀ held, Handset.Obeys R (runner.hold held)

theorem obeys_steps (steps : runner.Obeys R) (list : List Step) :
    Obeys R (list.mapM fun step => (runner.step step : Act σ StepAnswer)) := by
  induction list with
  | nil => exact obeys_pure enduring []
  | cons step list ih =>
    rw [List.mapM_cons]
    apply (steps.step step).bind enduring
    intro answer
    apply ih.bind enduring
    intro answers
    exact obeys_pure enduring _

theorem obeys_ending (ending : Ending) : Obeys R (match ending with
    | .done => return none
    | .fail failure => return some failure
    | .raise text => throw (.raised text) : Act σ (Option Failure)) := by
  cases ending with
  | done => exact obeys_pure enduring none
  | fail failure => exact obeys_pure enduring (some failure)
  | raise text => exact obeys_throw enduring _

theorem obeys_runBody (steps : runner.Obeys R) (body : Body) :
    Obeys R (Act.runBody runner body) := by
  cases body with
  | mk list ending =>
    cases list with
    | none => exact obeys_ending enduring ending
    | some list =>
      apply (obeys_steps enduring steps list).bind enduring
      intro answers
      apply (obeys_note enduring _).bind enduring
      intro _
      exact obeys_ending enduring ending

theorem obeys_runRule (steps : runner.Obeys R) (trigger : Trigger) (code : Option Int) :
    Obeys R (Act.runRule runner trigger code) := by
  apply obeys_get
  intro s
  cases Rule.fire trigger code s.rules with
  | none => exact obeys_pure enduring none s
  | some pair =>
    have counted : Obeys R (modify fun s => { s with rules := pair.2 } : Act σ Unit) :=
      obeys_modify enduring (fun _ => rfl) fun _ => rfl
    exact counted.bind enduring (fun _ => obeys_runBody enduring steps pair.1) s

theorem obeys_runJob (steps : runner.Obeys R) (job : Job) : Obeys R (Act.runJob runner job) := by
  cases job with
  | named name body =>
    apply (obeys_note enduring _).bind enduring
    intro _
    apply (obeys_runBody enduring steps body).bind enduring
    intro _
    exact obeys_pure enduring ()
  | gate held => exact steps.hold held
  | last left =>
    apply obeys_get
    intro s
    by_cases empty : s.queue.events.isEmpty = true
    · simp only [empty, if_true]
      exact obeys_pure enduring () s
    · simp only [empty]
      cases left with
      | zero => exact obeys_close enduring s
      | succ left =>
        apply (obeys_post enduring _).bind enduring
        intro _
        exact obeys_pure enduring ()

theorem obeys_holdPending (steps : runner.Obeys R) : Obeys R (Act.holdPending runner) := by
  apply obeys_get
  intro s
  split
  · exact steps.hold _ s
  · exact obeys_pure enduring () s

theorem obeys_processNext {handle : Event Job → Act σ (Option Failure)}
    (handles : ∀ event, Obeys R (handle event)) : Obeys R (Act.processNext handle) := by
  intro s
  unfold ObeysAt
  cases first : s.queue.next? with
  | none =>
    rw [Act.run_processNext_of_none first]
    exact enduring.quiet rfl rfl
  | some pair =>
    obtain ⟨event, queue⟩ := pair
    have kept : R { s with queue } _ := handles event { s with queue }
    cases ran : (handle event).run.run { s with queue } with
    | mk result s' =>
      rw [ran] at kept
      obtain ⟨logs, finished⟩ := Act.run_finishEvent event result s'
      rw [Act.run_processNext first ran, finished]
      have log : R s' { s' with logs } := enduring.quiet rfl rfl
      exact enduring.handled first (enduring.trans kept log)

theorem obeys_drain {handle : Event Job → Act σ (Option Failure)}
    (handles : ∀ event, Obeys R (handle event)) (limit : Nat) :
    Obeys R (Act.drain handle limit) := by
  induction limit with
  | zero => exact obeys_pure enduring 0
  | succ limit ih =>
    apply (obeys_processNext enduring handles).bind enduring
    intro more
    cases more with
    | false => exact obeys_pure enduring 0
    | true =>
      apply ih.bind enduring
      intro number
      exact obeys_pure enduring _

end Actions

namespace Host

variable {host : Host σ} {runner : Runner σ}

/-- A host that keeps to the relation as long as the scripts do that it runs. -/
structure Obeys (R : Session σ → Session σ → Prop) (host : Host σ) : Prop where
  handle : ∀ {runner}, runner.Obeys R → ∀ event, Handset.Obeys R (host.handle runner event)
  perform : ∀ {runner}, runner.Obeys R → ∀ request, Handset.Obeys R (host.perform runner request)
  service : ∀ {runner}, runner.Obeys R → Handset.Obeys R (host.service runner)

/-- A step answers with its fault, if it has one; so a list of steps is always gone through. -/
theorem run_steps (runner : Runner σ) (list : List Step) (s : Session σ) :
    ∃ answers s', (list.mapM fun step => (runner.step step : Act σ StepAnswer)).run.run s =
      (.ok answers, s') := by
  induction list generalizing s with
  | nil => exact ⟨[], s, rfl⟩
  | cons step list ih =>
    obtain ⟨answers, s', rest⟩ := ih ((runner.step step).run s).2
    have first : (liftM (runner.step step) : Act σ StepAnswer).run.run s =
      (.ok ((runner.step step).run s).1, ((runner.step step).run s).2) := rfl
    refine ⟨((runner.step step).run s).1 :: answers, s', ?_⟩
    rw [List.mapM_cons]
    simp only [run_bind, first, rest]
    rfl

variable (enduring : Enduring R)

include enduring

theorem obeys_hold (obeys : host.Obeys R) (steps : runner.Obeys R) (held : List Step) :
    Handset.Obeys R (host.hold runner held) := by
  apply obeys_get
  intro s
  cases s.dispatch with
  | none => exact obeys_pure enduring () s
  | some dispatch =>
    refine ObeysAt.bind enduring (enduring.quiet rfl rfl) fun _ => ?_
    apply (obeys_steps enduring steps held).bind enduring
    intro answers
    apply (obeys_post enduring _).bind enduring
    intro _
    apply obeys_get
    intro s
    -- A repaint that is waited for is in progress, is run at once, or is not asked for.
    dsimp only
    split
    · apply obeys_get (fun s => ?_) s
      split
      · exact enduring.quiet rfl rfl
      · apply ((obeys.service steps).bind enduring fun _ => ?_) s
        exact obeys_get fun s => enduring.quiet rfl rfl
    · exact enduring.quiet rfl rfl

theorem obeys_settleService (host : Host σ) : Handset.Obeys R host.settleService := by
  refine obeys_modify enduring (fun s => ?_) fun s => ?_
  · split <;> rfl
  · split <;> rfl

theorem obeys_dispatchAll (obeys : host.Obeys R) (steps : runner.Obeys R) (limit : Nat) :
    Handset.Obeys R (host.dispatchAll runner limit) := by
  induction limit with
  | zero => exact obeys_pure enduring ()
  | succ limit ih =>
    apply (obeys_processNext enduring (obeys.handle steps)).bind enduring
    intro more
    cases more with
    | false => exact obeys_pure enduring ()
    | true =>
      apply (obeys_settleService enduring host).bind enduring
      intro _
      exact ih

theorem obeys_dispatch (obeys : host.Obeys R) (steps : runner.Obeys R) (held : List Step)
    (holdPaint service : Bool) :
    Handset.Obeys R (host.dispatch runner held holdPaint service) := by
  apply obeys_get
  intro s
  refine ObeysAt.bind enduring (enduring.quiet rfl rfl) fun _ => ?_
  apply (obeys_post enduring _).bind enduring
  intro _
  apply (obeys_dispatchAll enduring obeys steps _).bind enduring
  intro _
  apply obeys_get
  intro s'
  have ends : Handset.Obeys R (do
      Act.close
      let done ← get
      set { done with painting := s.painting, thread := s.thread, dispatch := s.dispatch }
      let report := done.dispatch
      return .dispatched (s'.dispatch.any (·.answers.isSome))
        ((report.bind (·.answers)).getD []) (report.bind (·.serviced)) done.queue.closed
        done.queue.completed : Act σ Answer) := by
    apply (obeys_close enduring).bind enduring
    intro _
    apply obeys_get
    intro done
    exact ObeysAt.bind enduring (enduring.quiet rfl rfl) fun _ => obeys_pure enduring _
  dsimp only
  split
  · apply (obeys_hold enduring obeys steps held).bind enduring ?_ s'
    intro _
    exact (obeys_dispatchAll enduring obeys steps _).bind enduring fun _ => ends
  · exact ends s'

theorem obeys_flush (steps : runner.Obeys R) (tag : EventTag) (reentrant : Bool)
    (held : List Step) : Handset.Obeys R (flush runner tag reentrant held) := by
  intro s
  unfold ObeysAt
  cases flushed : s.queue.flush tag reentrant s.thread with
  | mk outcome queue =>
    by_cases taken : outcome = .take
    · subst taken
      obtain ⟨answers, s', ran⟩ := run_steps runner held { s with queue }
      have kept := obeys_steps enduring steps held { s with queue }
      unfold ObeysAt at kept
      rw [ran] at kept
      simp only [flush, run_bind, run_get, flushed, run_modify, if_true, ran]
      exact enduring.taken flushed kept
    · obtain rfl := Queue.flush_of_ne_take flushed taken
      simp only [flush, run_bind, run_get, flushed, run_modify, taken, if_false]
      exact enduring.quiet rfl rfl

theorem obeys_interpret (obeys : host.Obeys R) (steps : runner.Obeys R) (step : Step) :
    Handset.Obeys R (host.interpret runner step) := by
  cases step with
  | post kind =>
    apply (obeys_post enduring kind).bind enduring
    intro outcome
    exact obeys_pure enduring _
  | process =>
    apply obeys_get
    intro s
    dsimp only
    split
    · exact obeys_pure enduring _ s
    · apply (obeys_processNext enduring (obeys.handle steps)).bind enduring ?_ s
      intro more
      exact obeys_pure enduring _
  | drain limit =>
    apply (obeys_drain enduring (obeys.handle steps) limit).bind enduring
    intro number
    exact obeys_pure enduring _
  | remove selection => exact fun s => enduring.remove s selection.selects
  | flush tag reentrant held => exact obeys_flush enduring steps tag reentrant held
  | counts | inspect => exact fun s => enduring.quiet rfl rfl
  | close =>
    apply (obeys_close enduring).bind enduring
    intro _
    exact obeys_pure enduring _
  | addRule | setPaint => exact fun s => enduring.quiet rfl rfl
  | perform body =>
    apply (obeys_runBody enduring steps body).bind enduring
    intro _
    exact obeys_pure enduring _
  | dispatch held holdPaint service =>
    exact obeys_dispatch enduring obeys steps held holdPaint service
  | ask request => exact obeys.perform steps request

theorem obeys_answering {act : Act σ Answer} (obeys : Handset.Obeys R act) :
    Handset.Obeys R (liftM (answering act) : Act σ StepAnswer) := by
  intro s
  have fresh : R s { s with notes := #[] } := enduring.quiet rfl rfl
  have kept := enduring.trans fresh (obeys { s with notes := #[] })
  exact enduring.trans kept (enduring.quiet rfl rfl)

theorem obeys_step (obeys : host.Obeys R) (depth : Nat) (step : Step) :
    Handset.Obeys R (liftM (host.step depth step) : Act σ StepAnswer) := by
  induction depth generalizing step with
  | zero => exact obeys_answering enduring (obeys_throw enduring _)
  | succ depth ih =>
    have quiet : Runner.Obeys R ⟨host.step depth, fun _ => return⟩ :=
      ⟨ih, fun _ => obeys_pure enduring ()⟩
    have runner : Runner.Obeys R ⟨host.step depth, host.hold ⟨host.step depth, fun _ => return⟩⟩ :=
      ⟨ih, obeys_hold enduring obeys quiet⟩
    exact obeys_answering enduring (obeys_interpret enduring obeys runner step)

/-- What a session is after its steps is in relation to what it was before. -/
theorem obeys_run (obeys : host.Obeys R) (depth : Nat) (list : List Step) (s : Session σ) :
    R s ((list.mapM (host.step depth)).run s).2 := by
  induction list generalizing s with
  | nil => exact enduring.quiet rfl rfl
  | cons step list ih =>
    rw [List.mapM_cons]
    exact enduring.trans (obeys_step enduring obeys depth step s) (ih _)

end Host

end Handset
