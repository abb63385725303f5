import Handset.Proofs.ContainedSteps

/-! Sessions contain refusals, as long as what their host does with events and requests does. -/

namespace Handset.Stage

variable {solo : Bool} {α β : Type} {made : View α} {s : Session Stage} {talk : Talk}
  {runner : Runner Stage} {host : Host Stage}

/-- The rest depends on the session, but not on what is behind the stage. -/
theorem containsAt_get {next : Session Stage → Act α}
    (same : ∀ b : Backstage, next (b.cover s) = next s)
    (contains : ContainsAt solo made (next s) s talk) :
    ContainsAt solo made (get >>= next) s talk :=
  .of_run (fun _ b _ => by rw [run_bind, run_get, ← same b]) contains

theorem contains_attempt {act : Act α} (contains : Contains solo .plain act) :
    Contains solo .plain (Act.attempt act) := by
  intro s talk blind input
  obtain ⟨frames, output, s', talk', blind', holds⟩ := contains s talk blind input
  refine ⟨frames, .ok output, s', talk', blind', fun report b hushed hushed' => ?_⟩
  obtain ⟨result, b', ran, same, talks, hands, reports⟩ := holds report b hushed hushed'
  refine ⟨.ok result, b', ?_, ?_, talks, hands, ?_⟩
  · rw [run_attempt, ran]
  · rw [← same]
    cases result <;> rfl
  · simpa using reports

theorem contains_finish (tag : EventTag) :
    Contains solo .plain (Act.modifyQueue (·.finish tag) : Act Unit) :=
  contains_modify (fun _ _ => rfl) fun _ blind => blind_fewer blind fun _ mem => mem

theorem contains_finishInline (tag : EventTag) (thread : Nat) :
    Contains solo .plain (Act.modifyQueue (·.finishInline tag thread) : Act Unit) :=
  contains_modify (fun _ _ => rfl) fun _ blind => blind_fewer blind fun _ mem => mem

/-- What is left to do for an event that was handled. -/
theorem contains_handled (event : Event Job) (result : Except Fault (Option Failure)) :
    Contains solo .plain (do
      match result with
      | .ok none => pure ()
      | .ok (some failure) => Act.log (.eventFailed event.tag event.id failure)
      | .error fault => Act.log (.eventFaulted event.tag event.id fault)
      Act.modifyQueue (·.finish event.tag)
      return true : Act Bool) := by
  have ends : Contains solo .plain (do
      Act.modifyQueue (·.finish event.tag)
      return true : Act Bool) := by
    apply contains_bind (contains_finish event.tag)
    intro _
    exact contains_pure rfl
  split
  · exact ends
  · exact contains_bind (contains_log rfl) fun _ => ends
  · exact contains_bind (contains_log rfl) fun _ => ends

theorem contains_processNext {handle : Event Job → Act (Option Failure)}
    (handles : ∀ event, EventKind.blind solo event.kind = true →
      Contains solo .plain (handle event)) :
    Contains solo .plain (Act.processNext handle) := by
  intro s talk blind
  cases first : s.queue.next? with
  | none =>
    apply containsAt_get fun _ => rfl
    simp only [first]
    exact contains_pure rfl s talk blind
  | some pair =>
    obtain ⟨event, queue⟩ := pair
    obtain ⟨-, rest, events, rfl⟩ := Queue.next?_eq_some first
    have mem : event ∈ s.queue.events := by simp [events]
    have taken := contains_bind (contains_attempt (handles event (blind.events event mem)))
      (contains_handled event)
    have fewer := blind_fewer (q := { s.queue.leave event.tag with
        events := rest, current := some (event.tag, event.id) }) blind
      fun other mem => by simp [events, show other ∈ rest from mem]
    refine .of_run (fun _ b _ => ?_) (taken _ talk fewer)
    have first' : (b.cover s).queue.next? = some (event, _) := first
    simp only [Act.processNext, run_bind, run_get, first', run_modify]
    rfl

theorem contains_drain {handle : Event Job → Act (Option Failure)}
    (handles : ∀ event, EventKind.blind solo event.kind = true →
      Contains solo .plain (handle event)) (limit : Nat) :
    Contains solo .plain (Act.drain handle limit) := by
  induction limit with
  | zero => exact contains_pure rfl
  | succ limit ih =>
    apply contains_bind (contains_processNext handles)
    intro more
    cases more with
    | false => exact contains_pure rfl
    | true =>
      apply contains_bind ih
      intro number
      exact contains_pure rfl

theorem contains_flush (runs : Contains.Runs solo runner) (tag : EventTag) (reentrant : Bool)
    {held : List Step} (blind : Step.allBlind solo held = true) :
    Contains solo .answer (Host.flush runner tag reentrant held) := by
  intro s talk blind'
  have still : Session.Blind solo { s with queue := (s.queue.flush tag reentrant s.thread).2 } :=
    blind_fewer blind' fun _ => Queue.mem_of_mem_flush
  cases flushed : s.queue.flush tag reentrant s.thread with
  | mk outcome queue =>
    rw [flushed] at still
    by_cases taken : outcome = .take
    · have holds : Contains solo .answer (do
          let answers ← held.mapM fun step => (runner.step step : Act StepAnswer)
          Act.modifyQueue (·.finishInline tag s.thread)
          return .took answers : Act Answer) := by
        apply (contains_steps runs blind).bind
        apply Contained.keep (contains_finishInline tag s.thread) fun _ => ⟨_, _, rfl⟩
        exact contained_return (K := fun pair => .took pair.1) (fun _ => rfl) fun _ => rfl
      refine .of_run (fun _ b _ => ?_) (holds _ talk still)
      have flushed' : (b.cover s).queue.flush tag reentrant (b.cover s).thread =
        (outcome, queue) := flushed
      simp only [Host.flush, run_bind, run_get, flushed', run_modify, taken, if_true]
      rfl
    · refine .of_run (fun _ b _ => ?_)
        (contains_pure (a := .flushed outcome) rfl { s with queue } talk still)
      have flushed' : (b.cover s).queue.flush tag reentrant (b.cover s).thread =
        (outcome, queue) := flushed
      simp only [Host.flush, run_bind, run_get, flushed', run_modify, taken, if_false]
      rfl

/-- A host that contains refusals, as long as the scripts do that it runs. -/
structure Contains.Hosts (solo : Bool) (host : Host Stage) : Prop where
  handle : ∀ {runner}, Contains.Runs solo runner → ∀ event, EventKind.blind solo event.kind = true →
    Contains solo .plain (host.handle runner event)
  perform : ∀ {runner}, Contains.Runs solo runner → ∀ request, request.blind = true →
    Contains solo .answer (host.perform runner request)

/-- Nobody waits for a frame. -/
theorem contains_settleService (host : Host Stage) :
    Contains solo .plain host.settleService := by
  intro s talk blind
  have ran (b : Backstage) : host.settleService.run.run (b.cover s) = (.ok (), b.cover s) := by
    rw [Host.settleService, run_modify]
    cases there : s.dispatch with
    | none => simp [Backstage.cover, there]
    | some dispatch =>
      have patient := (blind.dispatch dispatch there).2.2.1
      simp [Backstage.cover, there, patient]
  exact containsAt_of_cover ran blind rfl

theorem contains_dispatchAll (hosts : Contains.Hosts solo host) (runs : Contains.Runs solo runner)
    (limit : Nat) : Contains solo .plain (host.dispatchAll runner limit) := by
  induction limit with
  | zero => exact contains_pure rfl
  | succ limit ih =>
    apply contains_bind (contains_processNext (hosts.handle runs))
    intro more
    cases more with
    | false => exact contains_pure rfl
    | true =>
      apply contains_bind (contains_settleService host)
      intro _
      exact ih

/-- What came first reports nothing of its own. -/
theorem Contained.fst {γ : Type} {given : View β} {next : β → Act α}
    (contained : Contained solo given made next) :
    Contained solo (given.prod (.plain : View γ)) made fun pair => next pair.1 := by
  intro s talk blind input
  obtain ⟨frames, output, s', talk', blind', holds⟩ := contained s talk blind input.1
  exact ⟨frames, output, s', talk', blind', fun report b hushed =>
    holds report.1 b (congrArg Prod.fst hushed)⟩

/-- The end of the held steps of a dispatch that waits for no frame: the thread is what it was before
them, and their answers are kept. -/
def endHold (painting painting' : Bool) (thread : Nat) (answers : List StepAnswer) : Act Unit :=
  modify fun s => { s with
    painting := painting'
    thread
    dispatch := some { pending := none, service := false, painting, answers := some answers } }

theorem contained_endHold (painting painting' : Bool) (thread : Nat) :
    Contained false .steps .plain (endHold painting painting' thread) := by
  intro s talk blind input
  refine ⟨[], .ok (), { s with
    painting := painting'
    thread
    dispatch := some { pending := none, service := false, painting } },
    { talk with answers := some input }, ?_, fun answers b hushed hushed' => ?_⟩
  · refine ⟨blind.events, blind.rules, blind.script, ?_⟩
    rintro _ ⟨⟩
    exact ⟨rfl, rfl, rfl, by simp⟩
  · refine ⟨.ok (), { b with answers := some answers }, rfl, rfl, ?_, ⟨rfl, rfl⟩, by simp⟩
    rw [← hushed, ← hushed']
    rfl

theorem contains_hold (runs : Contains.Runs solo runner) {held : List Step}
    (blind : Step.allBlind solo held = true) : Contains solo .plain (host.hold runner held) := by
  intro s talk blind'
  cases there : s.dispatch with
  | none =>
    apply containsAt_get
    · intro b
      simp only [Backstage.cover, there, Option.map_none]
    · simp only [there]
      exact contains_pure rfl s talk blind'
  | some dispatch =>
    obtain ⟨rfl, serviceless, patient, -⟩ := blind'.dispatch dispatch there
    obtain ⟨pending, service, painting, answers, before, serviced⟩ := dispatch
    cases serviceless
    cases patient
    have there' (b : Backstage) : (b.cover s).dispatch =
        some ⟨pending, false, painting, b.answers, none, serviced⟩ := by
      simp [Backstage.cover, there]
    let begun : Session Stage := { s with
      painting, thread := 0, dispatch := some ⟨none, false, painting, answers, none, serviced⟩ }
    have begins : begun.Blind false := by
      refine ⟨blind'.events, blind'.rules, blind'.script, ?_⟩
      rintro _ ⟨⟩
      exact ⟨rfl, rfl, rfl, by simp⟩
    have holds : Contains false .plain (do
        let answers ← held.mapM fun step => (runner.step step : Act StepAnswer)
        let _ ← Act.post (.task (.last Host.lastJobs))
        endHold painting s.painting s.thread answers) := by
      apply (contains_steps runs blind).bind
      apply Contained.keep (contains_post rfl) fun _ => ⟨_, _, rfl⟩
      exact (contained_endHold painting s.painting s.thread).fst
    refine .of_run (fun _ b _ => ?_) (holds begun talk begins)
    simp only [Host.hold, run_bind, run_get, there' b, run_set, Bool.false_eq_true, if_false]
    rfl

/-- The second thread of a dispatch, up to the end of it. -/
def underWay (host : Host Stage) (runner : Runner Stage) (held : List Step) (holdPaint : Bool) :
    Act Bool := do
  let _ ← Act.post (if holdPaint then .paint else .task (.gate held))
  host.dispatchAll runner Host.dispatchLimit
  let entered := (← get).dispatch.any (·.answers.isSome)
  if !entered then
    host.hold runner held
    host.dispatchAll runner Host.dispatchLimit
  Act.close
  return entered

theorem contains_entered :
    Contains solo .plain (do return (← get).dispatch.any (·.answers.isSome) : Act Bool) := by
  intro s talk blind input
  refine ⟨[], .ok (s.dispatch.isSome && talk.answers.isSome), s, talk, blind,
    fun _ b _ hushed => ?_⟩
  refine ⟨.ok ((b.cover s).dispatch.any (·.answers.isSome)), b, rfl, ?_, hushed, .refl b, ?_⟩
  · rw [← hushed]
    cases there : s.dispatch with
    | none => simp [Backstage.cover, there, Except.map, View.plain]
    | some dispatch =>
      simp [Backstage.cover, Backstage.hushed, there, Except.map, View.plain]
  · intro _
    simp [Display.refused, View.plain, View.weight]

theorem contains_underWay (hosts : Contains.Hosts solo host) (runs : Contains.Runs solo runner)
    {held : List Step} (blind : Step.allBlind solo held = true) (holdPaint : Bool) :
    Contains solo .plain (underWay host runner held holdPaint) := by
  have calm : EventKind.blind solo (if holdPaint then .paint else .task (.gate held)) = true := by
    cases holdPaint with
    | true => rfl
    | false => exact blind
  have ends (entered : Bool) :
      Contains solo .plain (do Act.close; return entered : Act Bool) := by
    apply contains_bind contains_close
    intro _
    exact contains_pure rfl
  have last (entered : Bool) : Contains solo .plain (do
      if !entered then
        host.hold runner held
        host.dispatchAll runner Host.dispatchLimit
      Act.close
      return entered : Act Bool) := by
    cases entered with
    | true => exact ends true
    | false =>
      apply contains_bind (contains_hold runs blind)
      intro _
      apply contains_bind (contains_dispatchAll hosts runs _)
      intro _
      exact ends false
  apply contains_bind (contains_post calm)
  intro _
  apply contains_bind (contains_dispatchAll hosts runs _)
  intro _
  exact contains_entered.bind (contained_of_plain last)

/-- The session of the second thread of a dispatch that waits for no frame. -/
def begun (held : List Step) (holdPaint : Bool) (s : Session Stage) : Session Stage :=
  { s with
    painting := false
    thread := s.thread + 1
    dispatch := some {
      pending := if holdPaint then some held else none
      service := false
      painting := s.painting } }

/-- The session after a dispatch is that of the second thread, but for what was under way before. -/
def ended (s done : Session Stage) : Session Stage :=
  { done with painting := s.painting, thread := s.thread, dispatch := s.dispatch }

theorem dispatch_eq (runner : Runner Stage) (held : List Step) (holdPaint : Bool) :
    host.dispatch runner held holdPaint false = (do
      let s ← get
      set (begun held holdPaint s)
      let entered ← underWay host runner held holdPaint
      let done ← get
      set (ended s done)
      return .dispatched entered ((done.dispatch.bind (·.answers)).getD [])
        (done.dispatch.bind (·.serviced)) done.queue.closed done.queue.completed : Act Answer) := by
  simp only [Host.dispatch, underWay, bind_assoc]
  apply bind_congr
  intro s
  apply bind_congr
  intro _
  apply bind_congr
  intro _
  apply bind_congr
  intro _
  apply bind_congr
  intro s'
  split
  · simp only [bind_assoc, pure_bind]
    rfl
  · simp only [bind_assoc, pure_bind]
    rfl

theorem run_dispatch {held : List Step} {holdPaint : Bool} {s s₁ : Session Stage}
    {b b₁ : Backstage} {result : Except Fault Bool}
    (ran : (underWay host runner held holdPaint).run.run
      (Backstage.cover { b with answers := none } (begun held holdPaint s)) =
        (result, b₁.cover s₁)) :
    (host.dispatch runner held holdPaint false).run.run (b.cover s) =
      match result with
      | .ok entered =>
        (.ok (.dispatched entered ((s₁.dispatch.bind fun _ => b₁.answers).getD [])
            (s₁.dispatch.bind (·.serviced)) s₁.queue.closed s₁.queue.completed),
          Backstage.cover { b₁ with answers := b.answers } (ended s s₁))
      | .error fault => (.error fault, b₁.cover s₁) := by
  have ran' : (underWay host runner held holdPaint).run.run (begun held holdPaint (b.cover s)) =
      (result, b₁.cover s₁) := ran
  simp only [dispatch_eq, run_bind, run_get, run_set, ran']
  cases result with
  | error fault => rfl
  | ok entered =>
    cases there : s₁.dispatch with
    | none =>
      simp only [Backstage.cover, there]
      rfl
    | some dispatch =>
      simp only [Backstage.cover, there]
      rfl

theorem blind_begun (blind : s.Blind false) {held : List Step}
    (calm : Step.allBlind false held = true) (holdPaint : Bool) :
    Session.Blind false (begun held holdPaint s) := by
  refine ⟨blind.events, blind.rules, blind.script, ?_⟩
  rintro _ ⟨⟩
  refine ⟨rfl, rfl, rfl, ?_⟩
  cases holdPaint with
  | true =>
    rintro _ ⟨⟩
    exact calm
  | false => exact nofun

/-- The answers of the held steps are those of the dispatch at hand; what was kept for one around it
stays behind the stage. -/
theorem contains_dispatch (hosts : Contains.Hosts false host) (runs : Contains.Runs false runner)
    {held : List Step} (blind : Step.allBlind false held = true) (holdPaint : Bool) :
    Contains false .answer (host.dispatch runner held holdPaint false) := by
  intro s talk blind' input
  have begins := blind_begun blind' blind holdPaint
  obtain ⟨frames, output, s₁, talk₁, blind₁, holds⟩ :=
    contains_underWay hosts runs blind holdPaint _ { talk with answers := none } begins ()
  have fresh (b : Backstage) (hushed : b.hushed = talk) :
      Backstage.hushed { b with answers := none } = { talk with answers := none } := by
    rw [← hushed]
    rfl
  cases output with
  | error fault =>
    refine ⟨frames, .error fault, s₁, talk₁, blind₁, fun report b _ hushed => ?_⟩
    obtain ⟨result, b₁, ran, same, talks, hands, -⟩ := holds () _ rfl (fresh b hushed)
    cases result with
    | ok entered => cases same
    | error fault' =>
      cases same
      exact ⟨.error fault, b₁, run_dispatch ran, rfl, talks, ⟨hands.display, hands.presented⟩, nofun⟩
  | ok entered =>
    refine ⟨frames, .ok (.dispatched entered ((s₁.dispatch.bind fun _ => talk₁.answers).getD [])
      (s₁.dispatch.bind (·.serviced)) s₁.queue.closed s₁.queue.completed), ended s s₁,
      { talk₁ with answers := talk.answers },
      ⟨blind₁.events, blind₁.rules, blind₁.script, blind'.dispatch⟩, fun report b _ hushed => ?_⟩
    obtain ⟨result, b₁, ran, same, talks, hands, -⟩ := holds () _ rfl (fresh b hushed)
    cases result with
    | error fault => cases same
    | ok entered' =>
      cases same
      refine ⟨_, { b₁ with answers := b.answers }, run_dispatch ran, ?_, ?_,
        ⟨hands.display, hands.presented⟩, nofun⟩
      · rw [← talks]
        cases s₁.dispatch with
        | none => rfl
        | some dispatch =>
          cases kept : b₁.answers with
          | none => simp [Except.map, View.answer, Answer.hushed, View.plain, Backstage.hushed, kept,
              StepAnswer.allHushed]
          | some answers => simp [Except.map, View.answer, Answer.hushed, View.plain,
              Backstage.hushed, kept]
      · rw [← talks, ← hushed]
        rfl

theorem contains_interpret (hosts : Contains.Hosts solo host) (runs : Contains.Runs solo runner)
    {step : Step} (blind : step.blind solo = true) :
    Contains solo .answer (host.interpret runner step) := by
  cases step with
  | post kind =>
    apply contains_bind (contains_post blind)
    intro outcome
    exact contains_pure rfl
  | process =>
    intro s talk blind'
    apply containsAt_get fun _ => rfl
    dsimp only
    split
    · exact contains_pure rfl s talk blind'
    · apply contains_bind (contains_processNext (hosts.handle runs)) _ s talk blind'
      intro more
      exact contains_pure rfl
  | drain limit =>
    apply contains_bind (contains_drain (hosts.handle runs) limit)
    intro number
    exact contains_pure rfl
  | remove selection =>
    intro s talk blind'
    have fewer : Session.Blind solo { s with queue := (s.queue.remove selection.selects).2 } :=
      blind_fewer blind' fun _ => Queue.mem_of_mem_remove
    have ran (b : Backstage) : (host.interpret runner (.remove selection)).run.run (b.cover s) =
        (.ok (.truth (s.queue.remove selection.selects).1),
          b.cover { s with queue := (s.queue.remove selection.selects).2 }) := rfl
    exact containsAt_of_cover ran fewer rfl
  | flush tag reentrant held => exact contains_flush runs tag reentrant blind
  | counts =>
    intro s talk blind'
    have ran (b : Backstage) : (host.interpret runner .counts).run.run (b.cover s) =
        (.ok (.counts s.queue), b.cover s) := rfl
    exact containsAt_of_cover ran blind' rfl
  | inspect =>
    intro s talk blind'
    have ran (b : Backstage) : (host.interpret runner .inspect).run.run (b.cover s) =
        (.ok (.events s.queue.events), b.cover s) := rfl
    exact containsAt_of_cover ran blind' rfl
  | close =>
    apply contains_bind contains_close
    intro _
    exact contains_pure rfl
  | addRule rule =>
    intro s talk blind'
    have more : Session.Blind solo { s with rules := s.rules ++ [rule] } := by
      refine ⟨blind'.events, fun rule' mem => ?_, blind'.script, blind'.dispatch⟩
      cases List.mem_append.mp mem with
      | inl old => exact blind'.rules rule' old
      | inr new =>
        cases List.mem_singleton.mp new
        exact blind
    have ran (b : Backstage) : (host.interpret runner (.addRule rule)).run.run (b.cover s) =
        (.ok .nothing, b.cover { s with rules := s.rules ++ [rule] }) := rfl
    exact containsAt_of_cover ran more rfl
  | setPaint script =>
    intro s talk blind'
    have ran (b : Backstage) : (host.interpret runner (.setPaint script)).run.run (b.cover s) =
        (.ok .nothing, b.cover { s with script }) := rfl
    exact containsAt_of_cover ran ⟨blind'.events, blind'.rules, blind, blind'.dispatch⟩ rfl
  | perform body =>
    apply contains_bind (contains_runBody runs blind)
    intro _
    exact contains_pure rfl
  | dispatch held holdPaint service =>
    have parts : (solo = false ∧ service = false) ∧ Step.allBlind solo held = true := by
      simpa [Step.blind] using blind
    obtain ⟨⟨rfl, rfl⟩, calm⟩ := parts
    exact contains_dispatch hosts runs calm holdPaint
  | ask request => exact hosts.perform runs request blind

theorem run_answering_eq (act : Act Answer) (s : Session Stage) :
    (liftM (Host.answering act) : Act StepAnswer).run.run s =
      (.ok (.mk (act.run.run { s with notes := #[] }).1
          (act.run.run { s with notes := #[] }).2.notes.toList
          (act.run.run { s with notes := #[] }).2.logs.toList
          (act.run.run { s with notes := #[] }).2.queue.size),
        { (act.run.run { s with notes := #[] }).2 with notes := s.notes, logs := #[] }) :=
  rfl

theorem contains_answering {act : Act Answer} (contains : Contains solo .answer act) :
    Contains solo .step (liftM (Host.answering act) : Act StepAnswer) := by
  intro s talk blind input
  obtain ⟨frames, output, s₁, talk₁, blind₁, holds⟩ :=
    contains s { talk with notes := [] } blind ()
  refine ⟨frames, .ok (.mk output talk₁.notes talk₁.logs s₁.queue.size), s₁,
    { talk₁ with notes := talk.notes, logs := [] }, blind₁, fun report b _ hushed => ?_⟩
  have fresh : Backstage.hushed { b with notes := #[] } = { talk with notes := [] } := by
    rw [← hushed]
    rfl
  obtain ⟨result, b₁, ran, same, talks, hands, reports⟩ := holds () _ rfl fresh
  refine ⟨.ok (.mk result b₁.notes.toList b₁.logs.toList s₁.queue.size),
    { b₁ with notes := b.notes, logs := #[] }, ?_, ?_, ?_, ⟨hands.display, hands.presented⟩,
    fun alone => ?_⟩
  · have ran' : act.run.run { b.cover s with notes := #[] } = (result, b₁.cover s₁) := ran
    rw [run_answering_eq, ran']
    rfl
  · rw [← same, ← talks]
    cases result <;> rfl
  · rw [← talks, ← hushed]
    rfl
  · have reports := reports alone
    cases result with
    | error fault =>
      simp only [View.weight, Backstage.refusals, View.plain, View.step, StepAnswer.refusals,
        Note.allRefusals] at reports ⊢
      simp at reports ⊢
      omega
    | ok answer =>
      simp only [View.weight, Backstage.refusals, View.plain, View.step, StepAnswer.refusals,
        View.answer] at reports ⊢
      simp [Note.allRefusals] at reports ⊢
      omega

theorem contains_step (hosts : Contains.Hosts solo host) (depth : Nat) (step : Step)
    (blind : step.blind solo = true) :
    Contains solo .step (liftM (host.step depth step) : Act StepAnswer) := by
  induction depth generalizing step with
  | zero => exact contains_answering (contains_throw _)
  | succ depth ih =>
    have quiet : Contains.Runs solo ⟨host.step depth, fun _ => return⟩ :=
      ⟨ih, fun _ _ => contains_pure rfl⟩
    have runs : Contains.Runs solo ⟨host.step depth, host.hold ⟨host.step depth, fun _ => return⟩⟩ :=
      ⟨ih, fun _ held => contains_hold quiet held⟩
    exact contains_answering (contains_interpret hosts runs blind)

theorem run_lifted (f : Step → StateM (Session Stage) StepAnswer) (steps : List Step)
    (s : Session Stage) :
    (steps.mapM fun step => (f step : Act StepAnswer)).run.run s =
      (.ok ((steps.mapM f).run s).1, ((steps.mapM f).run s).2) := by
  induction steps generalizing s with
  | nil => rfl
  | cons step steps ih =>
    have first : (liftM (f step) : Act StepAnswer).run.run s =
      (.ok ((f step).run s).1, ((f step).run s).2) := rfl
    rw [List.mapM_cons, List.mapM_cons]
    simp only [run_bind, first, ih]
    rfl

/-- A list of steps hands the display the same frames, and comes to the same but for the report of
those that were refused, whatever the display takes. -/
theorem contains_session (hosts : Contains.Hosts solo host) (depth : Nat) {steps : List Step}
    (blind : Step.allBlind solo steps = true) (s : Session Stage) (talk : Talk)
    (blind' : s.Blind solo) :
    ∃ frames answers s' talk', s'.Blind solo ∧ ∀ b : Backstage, b.hushed = talk →
      ∃ answers' b', (steps.mapM (host.step depth)).run (b.cover s) = (answers', b'.cover s') ∧
        StepAnswer.allHushed answers' = answers ∧ b'.hushed = talk' ∧ b.Hands frames b' ∧
        (solo = true → StepAnswer.allRefusals answers' + b'.refusals =
          b.refusals + b.display.refused frames) := by
  have runs : Contains.Runs solo ⟨host.step depth, fun _ => return⟩ :=
    ⟨contains_step hosts depth, fun _ _ => contains_pure rfl⟩
  obtain ⟨frames, output, s', talk', calm, holds⟩ := contains_steps runs blind s talk blind' ()
  have lifted (b : Backstage) := run_lifted (host.step depth) steps (b.cover s)
  cases output with
  | error fault =>
    refine ⟨frames, [], s', talk', calm, fun b hushed => ?_⟩
    obtain ⟨result, b', ran, same, -⟩ := holds () b rfl hushed
    obtain ⟨rfl, -⟩ := Prod.ext_iff.mp ((lifted b).symm.trans ran)
    cases same
  | ok answers =>
    refine ⟨frames, answers, s', talk', calm, fun b hushed => ?_⟩
    obtain ⟨result, b', ran, same, talks, hands, reports⟩ := holds () b rfl hushed
    obtain ⟨rfl, goes⟩ := Prod.ext_iff.mp ((lifted b).symm.trans ran)
    refine ⟨_, b', Prod.ext rfl goes, Except.ok.inj same, talks, hands, fun alone => ?_⟩
    simpa [View.weight, View.steps, View.plain] using reports alone

end Handset.Stage
