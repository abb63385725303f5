import Handset.Proofs.Change
import Handset.Session.Handler
import Handset.Session.Laws

/-! Sessions as runs of a world. What a session does on its one thread is a run of moves, as long as
its scripts leave it to the host to take events out of the queue. -/

namespace Handset

mutual

/-- Neither takes events out of the queue nor begins a dispatch, and posts no work that does. -/
def Step.plain : Step → Bool
  | .post kind => EventKind.plain kind
  | .process => false
  | .drain _ => false
  | .flush .. => false
  | .dispatch .. => false
  | .addRule rule => rule.plain
  | .setPaint script => PaintItem.allPlain script
  | .perform body => body.plain
  | .remove _ => true
  | .counts => true
  | .inspect => true
  | .close => true
  | .ask _ => true

def Step.allPlain : List Step → Bool
  | [] => true
  | step :: steps => step.plain && Step.allPlain steps

def Body.plain : Body → Bool
  | .mk (some steps) _ => Step.allPlain steps
  | .mk none _ => true

def Job.plain : Job → Bool
  | .named _ body => body.plain
  | .gate _ => false
  | .last _ => true

def EventKind.plain : EventKind Job → Bool
  | .task job => job.plain
  | _ => true

def Rule.plain : Rule → Bool
  | .mk _ _ _ body => body.plain

def PaintItem.plain : PaintItem → Bool
  | .body body => body.plain
  | _ => true

def PaintItem.allPlain : List PaintItem → Bool
  | [] => true
  | item :: items => item.plain && PaintItem.allPlain items

end

/-- Neither queued work, nor a rule, nor the paint takes events out of the queue. -/
structure PlainScripts (events : List (Event Job)) (rules : List Rule) (script : List PaintItem)
    (dispatch : Option Dispatch) : Prop where
  events : ∀ event ∈ events, event.kind.plain = true
  rules : ∀ rule ∈ rules, rule.plain = true
  script : PaintItem.allPlain script = true
  dispatch : dispatch = none

abbrev Session.Plain (s : Session Stage) : Prop :=
  PlainScripts s.queue.events s.rules s.script s.dispatch

/-- The session has the canvas and the queue of the world, and is inside a paint when a thread of
the world is. -/
structure Mirrors (s : Session Stage) (w : World Job) : Prop where
  canvas : w.canvas = s.stage.canvas
  queue : w.queue = s.queue
  painting : w.locked = s.painting
  plain : s.Plain

namespace World

/-- Some moves make the one world of the other. -/
def Leads (w w' : World Job) : Prop :=
  ∃ moves, w.run moves = some w'

/-- Some moves make the one world of the other, and what was under way is as far as it was. -/
structure Goes (w w' : World Job) : Prop where
  leads : w.Leads w'
  turn : w'.turn = w.turn
  runs : w'.runs = w.runs
  calls : w'.calls = w.calls

variable {u v w : World Job}

theorem run_append (w : World Job) (early late : List (Move Job)) :
    w.run (early ++ late) = (w.run early).bind (·.run late) := by
  induction early generalizing w with
  | nil => rfl
  | cons move early ih =>
    simp only [List.cons_append, run, Option.bind_assoc]
    congr 1
    funext v
    exact ih v

theorem Leads.refl (w : World Job) : w.Leads w :=
  ⟨[], rfl⟩

theorem Leads.one (move : Move Job) (made : u.step move = some v) : u.Leads v := by
  exists [move]
  rw [run, made]
  rfl

theorem Leads.trans (first : u.Leads v) (second : v.Leads w) : u.Leads w := by
  cases first with
  | intro early made =>
    cases second with
    | intro late made' =>
      exists early ++ late
      rw [run_append, made]
      exact made'

theorem Leads.reaches {canvas : Canvas} (leads : u.Leads v) (reach : Reaches canvas u) :
    Reaches canvas v := by
  cases leads with
  | intro moves made => exact reach.run made

theorem Goes.refl (w : World Job) : w.Goes w :=
  ⟨.refl w, rfl, rfl, rfl⟩

theorem Goes.trans (first : u.Goes v) (second : v.Goes w) : u.Goes w where
  leads := first.leads.trans second.leads
  turn := second.turn.trans first.turn
  runs := second.runs.trans first.runs
  calls := second.calls.trans first.calls

theorem Goes.locked (goes : u.Goes v) : v.locked = u.locked := by
  simp only [World.locked, goes.turn, goes.runs]

end World

/-- What a session records and logs has no counterpart in a world. -/
theorem Mirrors.record {s : Session Stage} {w : World Job} (h : Mirrors s w) (notes : Array Note)
    (logs : Array LogEntry) : Mirrors { s with notes, logs } w :=
  ⟨h.canvas, h.queue, h.painting, h.plain⟩

/-- From the world that the session mirrors the action is a run of moves to one that it mirrors
again. -/
def Tracks {α : Type} (act : Stage.Act α) (s : Session Stage) (w : World Job) : Prop :=
  ∃ w', w.Goes w' ∧ Mirrors (act.run.run s).2 w'

def Mirrored {α : Type} (act : Stage.Act α) : Prop :=
  ∀ s w, Mirrors s w → Tracks act s w

section Actions

variable {α β : Type} {act : Stage.Act α} {next : α → Stage.Act β} {s s' : Session Stage}
  {w w' : World Job}

theorem run_theCanvas (s : Session Stage) :
    Stage.theCanvas.run.run s = (.ok s.stage.canvas, s) :=
  rfl

theorem run_setCanvas (canvas : Canvas) (s : Session Stage) :
    (Stage.setCanvas canvas).run.run s =
      (.ok (), { s with stage := { s.stage with canvas } }) :=
  rfl

theorem Tracks.bind (first : Tracks act s w) (rest : ∀ a, Mirrored (next a)) :
    Tracks (act >>= next) s w := by
  cases first with
  | intro v first =>
    unfold Tracks
    rw [run_bind]
    cases ran : act.run.run s with
    | mk result s' =>
      rw [ran] at first
      cases result with
      | ok a =>
        cases rest a s' v first.2 with
        | intro w' second => exact ⟨w', first.1.trans second.1, second.2⟩
      | error fault => exact ⟨v, first⟩

theorem Mirrored.bind (first : Mirrored act) (rest : ∀ a, Mirrored (next a)) :
    Mirrored (act >>= next) := by
  intro s w h
  exact (first s w h).bind rest

theorem mirrored_pure (a : α) : Mirrored (pure a : Stage.Act α) := by
  intro s w h
  exact ⟨w, .refl w, h⟩

theorem mirrored_throw (fault : Fault) : Mirrored (throw fault : Stage.Act α) := by
  intro s w h
  exact ⟨w, .refl w, h⟩

theorem Tracks.get {next : Session Stage → Stage.Act α} (h : Tracks (next s) s w) :
    Tracks (get >>= next) s w :=
  h

theorem mirrored_get {next : Session Stage → Stage.Act α}
    (rest : ∀ s w, Mirrors s w → Tracks (next s) s w) : Mirrored (get >>= next) := by
  intro s w h
  exact rest s w h

theorem mirrored_theCanvas {next : Canvas → Stage.Act α}
    (rest : ∀ s w, Mirrors s w → Tracks (next s.stage.canvas) s w) :
    Mirrored (Stage.theCanvas >>= next) := by
  intro s w h
  exact rest s w h

theorem mirrored_modify {f : Session Stage → Session Stage}
    (same : ∀ s w, Mirrors s w → Mirrors (f s) w) : Mirrored (modify f : Stage.Act Unit) := by
  intro s w h
  exact ⟨w, .refl w, same s w h⟩

theorem mirrored_note (entry : Note) : Mirrored (Act.note entry : Stage.Act Unit) := by
  apply mirrored_modify
  intro s w h
  exact h.record _ s.logs

theorem mirrored_log (entry : LogEntry) : Mirrored (Act.log entry : Stage.Act Unit) := by
  apply mirrored_modify
  intro s w h
  exact h.record s.notes _

theorem World.goes_adjust (w : World Job) (adjustment : Adjustment) :
    w.Goes { w with canvas := adjustment.apply w.canvas } where
  leads := .one (.adjust adjustment) rfl
  turn := rfl
  runs := rfl
  calls := rfl

theorem Mirrors.adjust (h : Mirrors s w) (f : Canvas → Canvas) :
    Mirrors { s with stage := { s.stage with canvas := f s.stage.canvas } }
      { w with canvas := f w.canvas } where
  canvas := congrArg f h.canvas
  queue := h.queue
  painting := h.painting
  plain := h.plain

theorem mirrored_modifyCanvas {f : Canvas → Canvas}
    (agrees : ∀ canvas : Canvas, canvas.Agrees (f canvas)) : Mirrored (Stage.modifyCanvas f) := by
  intro s w h
  exact ⟨_, w.goes_adjust ⟨f, agrees⟩, h.adjust f⟩

theorem mirrored_throttle : Mirrored Stage.throttle := by
  intro s w h
  let wait (canvas : Canvas) : Canvas :=
    { canvas with limiter := (canvas.limiter.throttle s.clock).2 }
  have waited := h.adjust wait
  refine ⟨_, w.goes_adjust ⟨wait, fun _ => ⟨rfl, rfl, rfl⟩⟩, ?_⟩
  exact ⟨waited.canvas, waited.queue, waited.painting, waited.plain⟩

theorem plain_post {kind : EventKind Job} (plain : s.Plain) (calm : kind.plain = true) :
    Session.Plain { s with queue := (s.queue.post kind).2 } where
  events event mem := by
    cases Queue.mem_of_mem_post mem with
    | inl queued => exact plain.events event queued
    | inr new => rwa [new]
  rules := plain.rules
  script := plain.script
  dispatch := plain.dispatch

theorem Mirrors.post (h : Mirrors s w) (cause : Cause) {kind : EventKind Job}
    (calm : kind.plain = true) :
    Mirrors { s with queue := (s.queue.post kind).2 } (w.post cause kind) where
  canvas := by rw [World.canvas_post, h.canvas]
  queue := by rw [World.queue_post, h.queue]
  painting := by rw [World.locked_post, h.painting]
  plain := plain_post h.plain calm

theorem World.Leads.goes_post {u v : World Job} {cause : Cause} {kind : EventKind Job}
    (leads : u.Leads (v.post cause kind)) (turn : v.turn = u.turn) (runs : v.runs = u.runs)
    (calls : v.calls = u.calls) : u.Goes (v.post cause kind) where
  leads := leads
  turn := (v.turn_post cause kind).trans turn
  runs := (v.runs_post cause kind).trans runs
  calls := (v.calls_post cause kind).trans calls

theorem mirrored_post {kind : EventKind Job} (calm : kind.plain = true) :
    Mirrored (Act.post kind : Stage.Act PostOutcome) := by
  intro s w h
  have posts : w.Leads (w.post .request kind) := .one (.post kind) rfl
  exact ⟨_, posts.goes_post rfl rfl rfl, h.post .request calm⟩

theorem mirrored_postAll {kinds : List (EventKind Job)} (calm : ∀ kind ∈ kinds, kind.plain = true) :
    Mirrored (Act.postAll kinds : Stage.Act Unit) := by
  induction kinds with
  | nil => exact mirrored_pure ()
  | cons kind kinds ih =>
    apply Mirrored.bind
    · apply Mirrored.bind (mirrored_post (calm kind List.mem_cons_self))
      intro outcome
      exact mirrored_pure ()
    · intro _
      apply ih
      intro other mem
      exact calm other (List.mem_cons_of_mem _ mem)

/-- A runner whose plain steps are runs of moves. -/
def Calm (runner : Runner Stage) : Prop :=
  ∀ step : Step, step.plain = true → Mirrored (liftM (runner.step step) : Stage.Act StepAnswer)

variable {runner : Runner Stage}

theorem mirrored_steps (calm : Calm runner) {steps : List Step}
    (plain : Step.allPlain steps = true) :
    Mirrored (steps.mapM fun step => (runner.step step : Stage.Act StepAnswer)) := by
  induction steps with
  | nil => exact mirrored_pure []
  | cons step steps ih =>
    have parts : step.plain = true ∧ Step.allPlain steps = true := by
      simpa [Step.allPlain] using plain
    rw [List.mapM_cons]
    apply Mirrored.bind (calm step parts.1)
    intro answer
    apply Mirrored.bind (ih parts.2)
    intro answers
    exact mirrored_pure _

theorem mirrored_ending (ending : Ending) : Mirrored (match ending with
    | .done => return none
    | .fail failure => return some failure
    | .raise text => throw (.raised text) : Stage.Act (Option Failure)) := by
  cases ending with
  | done => exact mirrored_pure none
  | fail failure => exact mirrored_pure (some failure)
  | raise text => exact mirrored_throw _

theorem mirrored_runBody (calm : Calm runner) {body : Body} (plain : body.plain = true) :
    Mirrored (Act.runBody runner body) := by
  cases body with
  | mk steps ending =>
    cases steps with
    | none => exact mirrored_ending ending
    | some steps =>
      apply Mirrored.bind (mirrored_steps calm plain)
      intro answers
      apply Mirrored.bind (mirrored_note _)
      intro _
      exact mirrored_ending ending

/-- A rule that is set off is one of the rules, but for the number of times left. -/
theorem Rule.fire_all {p : Rule → Prop} {trigger : Trigger} {code : Option Int}
    {rules rules' : List Rule} {body : Body}
    (counts : ∀ {t c times times' own}, p (.mk t c times own) → p (.mk t c times' own))
    (all : ∀ rule ∈ rules, p rule) (fires : Rule.fire trigger code rules = some (body, rules')) :
    (∃ t c times, p (.mk t c times body)) ∧ ∀ rule ∈ rules', p rule := by
  induction rules generalizing rules' with
  | nil => cases fires
  | cons rule rules ih =>
    have later : ∀ rule ∈ rules, p rule := fun rule mem => all rule (List.mem_cons_of_mem _ mem)
    cases rule with
    | mk t c times own =>
      have first : p (.mk t c times own) := all _ List.mem_cons_self
      -- The first rule may be set off; else it stays and the others are looked through.
      simp only [Rule.fire] at fires
      split at fires
      · cases fires
        refine ⟨⟨t, c, times, first⟩, ?_⟩
        intro rule mem
        cases List.mem_cons.mp mem with
        | inl eq =>
          cases eq
          exact counts first
        | inr mem => exact later rule mem
      · cases found : Rule.fire trigger code rules with
        | none => simp [found] at fires
        | some pair =>
          simp only [found, Option.map_some, Option.some.injEq, Prod.mk.injEq] at fires
          have fires' : Rule.fire trigger code rules = some (body, pair.2) := by
            rw [found, ← fires.1]
          have rest := ih later fires'
          refine ⟨rest.1, ?_⟩
          rw [← fires.2]
          intro rule mem
          cases List.mem_cons.mp mem with
          | inl eq =>
            cases eq
            exact first
          | inr mem => exact rest.2 rule mem

theorem plain_fire {trigger : Trigger} {code : Option Int} {rules rules' : List Rule} {body : Body}
    (plain : ∀ rule ∈ rules, rule.plain = true)
    (fires : Rule.fire trigger code rules = some (body, rules')) :
    body.plain = true ∧ ∀ rule ∈ rules', rule.plain = true := by
  obtain ⟨⟨t, c, times, own⟩, rest⟩ :=
    Rule.fire_all (p := fun rule => rule.plain = true) (fun {_ _ _ _ _} plain => plain) plain fires
  exact ⟨own, rest⟩

theorem mirrored_runRule (calm : Calm runner) (trigger : Trigger) (code : Option Int) :
    Mirrored (Act.runRule runner trigger code) := by
  apply mirrored_get
  intro s w h
  cases fires : Rule.fire trigger code s.rules with
  | none => exact mirrored_pure none s w h
  | some pair =>
    have plain := plain_fire h.plain.rules fires
    have first : Tracks (modify fun s => { s with rules := pair.2 } : Stage.Act Unit) s w := by
      refine ⟨w, .refl w, h.canvas, h.queue, h.painting, ?_⟩
      exact ⟨h.plain.events, plain.2, h.plain.script, h.plain.dispatch⟩
    apply first.bind
    intro _
    exact mirrored_runBody calm plain.1

theorem mirrored_call (calm : Calm runner) (callback : Callback) (entry : Note)
    (code : Option Int) : Mirrored (Stage.call runner callback entry code) := by
  apply mirrored_get
  intro s w h
  by_cases scripted : s.stage.app = .scripted
  · simp only [scripted, if_true]
    apply Mirrored.bind (mirrored_note entry) ?_ s w h
    intro _
    apply Mirrored.bind (mirrored_runRule calm _ code)
    intro _
    exact mirrored_pure ()
  · simp only [scripted, if_false]
    exact mirrored_pure () s w h

theorem plain_fewer {q : Queue Job} (plain : s.Plain)
    (fewer : ∀ event ∈ q.events, event ∈ s.queue.events) : Session.Plain { s with queue := q } where
  events event mem := plain.events event (fewer event mem)
  rules := plain.rules
  script := plain.script
  dispatch := plain.dispatch

theorem World.goes_close (w : World Job) :
    w.Goes (w.drop (if w.queue.closed then [] else w.queue.events) w.queue.close.2) where
  leads := .one .close rfl
  turn := rfl
  runs := rfl
  calls := rfl

theorem plain_close (plain : s.Plain) : Session.Plain { s with queue := s.queue.close.2 } :=
  plain_fewer plain fun _ => Queue.mem_of_mem_close

theorem mirrored_close : Mirrored (Act.close : Stage.Act Unit) := by
  apply mirrored_get
  intro s w h
  have first : Tracks (modify fun s' => { s' with queue := s.queue.close.2 } : Stage.Act Unit)
      s w := by
    refine ⟨_, w.goes_close, h.canvas, ?_, h.painting, plain_close h.plain⟩
    exact congrArg (·.close.2) h.queue
  apply first.bind
  intro _
  split
  · exact mirrored_pure ()
  · exact mirrored_pure ()
  · exact mirrored_log _

theorem mirrored_runJob (calm : Calm runner) {job : Job} (plain : job.plain = true) :
    Mirrored (Act.runJob runner job) := by
  cases job with
  | named name body =>
    apply Mirrored.bind (mirrored_note _)
    intro _
    apply Mirrored.bind (mirrored_runBody calm plain)
    intro _
    exact mirrored_pure ()
  | gate held => cases plain
  | last left =>
    apply mirrored_get
    intro s w h
    by_cases empty : s.queue.events.isEmpty = true
    · simp only [empty, if_true]
      exact mirrored_pure () s w h
    · simp only [empty]
      cases left with
      | zero => exact mirrored_close s w h
      | succ left =>
        apply Mirrored.bind (mirrored_post rfl) ?_ s w h
        intro _
        exact mirrored_pure ()

end Actions

end Handset
