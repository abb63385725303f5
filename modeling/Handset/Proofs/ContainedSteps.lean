import Handset.Proofs.Containment

/-! The steps of a session contain refusals, as long as what the host does with events and requests
does. -/

namespace Handset.Stage

variable {solo : Bool} {α β : Type} {made : View α} {s : Session Stage} {talk : Talk}
  {runner : Runner Stage}

theorem blind_fewer {q : Queue Job} (blind : s.Blind solo)
    (fewer : ∀ event ∈ q.events, event ∈ s.queue.events) :
    Session.Blind solo { s with queue := q } where
  events event mem := blind.events event (fewer event mem)
  rules := blind.rules
  script := blind.script
  dispatch := blind.dispatch

theorem blind_post {kind : EventKind Job} (blind : s.Blind solo)
    (calm : EventKind.blind solo kind = true) :
    Session.Blind solo { s with queue := (s.queue.post kind).2 } where
  events event mem := by
    cases Queue.mem_of_mem_post mem with
    | inl queued => exact blind.events event queued
    | inr new => rwa [new]
  rules := blind.rules
  script := blind.script
  dispatch := blind.dispatch

theorem contains_post {kind : EventKind Job} (calm : EventKind.blind solo kind = true) :
    Contains solo .plain (Act.post kind : Act PostOutcome) := by
  intro s talk blind
  have ran (b : Backstage) : (Act.post kind : Act PostOutcome).run.run (b.cover s) =
      (.ok (s.queue.post kind).1, b.cover { s with queue := (s.queue.post kind).2 }) := rfl
  exact containsAt_of_cover ran (blind_post blind calm) rfl

theorem contains_forM {items : List α} {f : α → Act Unit}
    (each : ∀ a ∈ items, Contains solo .plain (f a)) : Contains solo .plain (items.forM f) := by
  induction items with
  | nil => exact contains_pure rfl
  | cons item items ih =>
    apply contains_bind (each item List.mem_cons_self)
    intro _
    exact ih fun a mem => each a (List.mem_cons_of_mem _ mem)

theorem contains_postAll {kinds : List (EventKind Job)}
    (calm : ∀ kind ∈ kinds, EventKind.blind solo kind = true) :
    Contains solo .plain (Act.postAll kinds : Act Unit) := by
  apply contains_forM
  intro kind mem
  apply contains_bind (contains_post (calm kind mem))
  intro _
  exact contains_pure rfl

theorem contains_logLeft (left : Option Nat) : Contains solo .plain (match left with
    | none => return
    | some 0 => return
    | some n => Act.log (.closedWith n) : Act Unit) := by
  split
  · exact contains_pure rfl
  · exact contains_pure rfl
  · exact contains_log rfl

theorem contains_close : Contains solo .plain (Act.close : Act Unit) := by
  intro s talk blind
  have closed : Session.Blind solo { s with queue := s.queue.close.2 } :=
    blind_fewer blind fun _ => Queue.mem_of_mem_close
  exact .of_run (fun _ _ _ => rfl) (contains_logLeft s.queue.close.1 _ talk closed)

/-- A runner whose blind steps contain refusals, the held ones too. -/
structure Contains.Runs (solo : Bool) (runner : Runner Stage) : Prop where
  step : ∀ step : Step, step.blind solo = true →
    Contains solo .step (liftM (runner.step step) : Act StepAnswer)
  hold : ∀ held, Step.allBlind solo held = true → Contains solo .plain (runner.hold held)

theorem contains_steps (runs : Contains.Runs solo runner) {steps : List Step}
    (blind : Step.allBlind solo steps = true) :
    Contains solo .steps (steps.mapM fun step => (runner.step step : Act StepAnswer)) := by
  induction steps with
  | nil => exact contains_pure rfl
  | cons step steps ih =>
    have parts : step.blind solo = true ∧ Step.allBlind solo steps = true := by
      simpa [Step.allBlind] using blind
    rw [List.mapM_cons]
    apply (runs.step step parts.1).bind
    apply Contained.keep (ih parts.2) (Host.run_steps runner steps)
    exact contained_return (K := fun pair => pair.1 :: pair.2) (fun _ => rfl) fun _ => rfl

theorem contains_ending (ending : Ending) : Contains solo .plain (match ending with
    | .done => return none
    | .fail failure => return some failure
    | .raise text => throw (.raised text) : Act (Option Failure)) := by
  cases ending with
  | done => exact contains_pure rfl
  | fail failure => exact contains_pure rfl
  | raise text => exact contains_throw _

theorem contains_runBody (runs : Contains.Runs solo runner) {body : Body}
    (blind : body.blind solo = true) : Contains solo .plain (Act.runBody runner body) := by
  cases body with
  | mk steps ending =>
    cases steps with
    | none => exact contains_ending ending
    | some steps =>
      apply (contains_steps runs blind).bind
      apply contained_noteNested.bind
      apply contained_of_plain
      intro _
      exact contains_ending ending

theorem blind_fire {trigger : Trigger} {code : Option Int} {rules rules' : List Rule} {body : Body}
    (blind : ∀ rule ∈ rules, rule.blind solo = true)
    (fires : Rule.fire trigger code rules = some (body, rules')) :
    body.blind solo = true ∧ ∀ rule ∈ rules', rule.blind solo = true := by
  obtain ⟨⟨t, c, times, own⟩, rest⟩ := Rule.fire_all (p := fun rule => rule.blind solo = true)
    (fun {_ _ _ _ _} blind => blind) blind fires
  exact ⟨own, rest⟩

theorem contains_runRule (runs : Contains.Runs solo runner) (trigger : Trigger)
    (code : Option Int) : Contains solo .plain (Act.runRule runner trigger code) := by
  intro s talk blind
  cases fires : Rule.fire trigger code s.rules with
  | none =>
    have ran (b : Backstage) : (Act.runRule runner trigger code).run.run (b.cover s) =
        (.ok none, b.cover s) := by
      have fires' : Rule.fire trigger code (b.cover s).rules = none := fires
      simp only [Act.runRule, run_bind, run_get, fires']
      rfl
    exact containsAt_of_cover ran blind rfl
  | some pair =>
    have rest := blind_fire blind.rules fires
    have counted : Session.Blind solo { s with rules := pair.2 } :=
      ⟨blind.events, rest.2, blind.script, blind.dispatch⟩
    refine .of_run (fun _ b _ => ?_) (contains_runBody runs rest.1 _ talk counted)
    have fires' : Rule.fire trigger code (b.cover s).rules = some pair := fires
    simp only [Act.runRule, run_bind, run_get, fires', run_modify]
    rfl

theorem contains_runJob (runs : Contains.Runs solo runner) {job : Job}
    (blind : job.blind solo = true) : Contains solo .plain (Act.runJob runner job) := by
  cases job with
  | named name body =>
    apply contains_bind (contains_note rfl)
    intro _
    apply contains_bind (contains_runBody runs blind)
    intro _
    exact contains_pure rfl
  | gate held => exact runs.hold held blind
  | last left =>
    intro s talk blind'
    by_cases empty : s.queue.events.isEmpty = true
    · have ran (b : Backstage) : (Act.runJob runner (.last left)).run.run (b.cover s) =
          (.ok (), b.cover s) := by
        have empty' : (b.cover s).queue.events.isEmpty = true := empty
        simp only [Act.runJob, run_bind, run_get, empty', if_true]
        rfl
      exact containsAt_of_cover ran blind' rfl
    · have more : Contains solo .plain (match left with
          | 0 => Act.close
          | left + 1 => do let _ ← Act.post (.task (.last left)) : Act Unit) := by
        cases left with
        | zero => exact contains_close
        | succ left =>
          apply contains_bind (contains_post rfl)
          intro _
          exact contains_pure rfl
      refine .of_run (fun _ b _ => ?_) (more s talk blind')
      have empty' : ¬ (b.cover s).queue.events.isEmpty = true := empty
      simp only [Act.runJob, run_bind, run_get, empty']
      cases left <;> rfl

theorem contains_holdPending (runs : Contains.Runs solo runner) :
    Contains solo .plain (Act.holdPending runner) := by
  intro s talk blind
  have still (ran : ∀ b : Backstage, (Act.holdPending runner).run.run (b.cover s) =
      (.ok (), b.cover s)) : ContainsAt solo .plain (Act.holdPending runner) s talk :=
    containsAt_of_cover ran blind rfl
  cases there : s.dispatch with
  | none =>
    apply still
    intro b
    have there' : (b.cover s).dispatch = none := by simp [Backstage.cover, there]
    simp only [Act.holdPending, run_bind, run_get, there']
    rfl
  | some dispatch =>
    have there' (b : Backstage) :
        (b.cover s).dispatch = some { dispatch with answers := b.answers } := by
      simp [Backstage.cover, there]
    cases pending : dispatch.pending with
    | none =>
      apply still
      intro b
      simp only [Act.holdPending, run_bind, run_get, there', pending]
      rfl
    | some held =>
      have calm := (blind.dispatch dispatch there).2.2.2 held pending
      refine .of_run (fun _ b _ => ?_) (runs.hold held calm s talk blind)
      simp only [Act.holdPending, run_bind, run_get, there', pending]

end Handset.Stage
