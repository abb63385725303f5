import Handset.Proofs.Exhibits
import Handset.Proofs.Hushing

/-! What comes of a refused frame. A display takes part in no more than a session's record of what it
took and its log; everything else is the same whatever frames it takes. -/

namespace Handset

namespace Display

theorem taken_append (display : Display) (frames frames' : List Image) :
    display.taken (frames ++ frames') =
      display.taken frames ++ (display.presentAll frames).taken frames' := by
  induction frames generalizing display with
  | nil => rfl
  | cons frame frames ih =>
    have goesOn : display.presentAll (frame :: frames) =
        (display.present frame).2.presentAll frames := rfl
    rw [goesOn, List.cons_append, taken, taken]
    cases result : display.present frame with
    | mk outcome display' =>
      cases outcome with
      | ok _ => simp only [ih, List.cons_append]
      | error error => exact ih display'

/-- The number of frames that the display refuses. -/
def refused (display : Display) (frames : List Image) : Nat :=
  frames.length - (display.taken frames).length

theorem length_taken_le (display : Display) (frames : List Image) :
    (display.taken frames).length ≤ frames.length := by
  induction frames generalizing display with
  | nil => exact Nat.le_refl 0
  | cons frame frames ih =>
    rw [taken]
    cases display.present frame with
    | mk outcome display' =>
      have := ih display'
      cases outcome with
      | ok _ => simpa using this
      | error error => exact Nat.le_succ_of_le this

theorem refused_append (display : Display) (frames frames' : List Image) :
    display.refused (frames ++ frames') =
      display.refused frames + (display.presentAll frames).refused frames' := by
  have := display.length_taken_le frames
  have := (display.presentAll frames).length_taken_le frames'
  simp only [refused, taken_append, List.length_append]
  omega

end Display

/-- What a session has from the display, or says of it: the display itself, the number of frames that
it took, what is noted and logged, and the answers of held steps. -/
structure Backstage where
  display : Display
  presented : Nat
  notes : Array Note
  logs : Array LogEntry
  answers : Option (List StepAnswer)

/-- What is said, but for refused frames. -/
structure Talk where
  notes : List Note
  logs : List LogEntry
  answers : Option (List StepAnswer)

namespace Backstage

def frame (b : Backstage) (frame : Frame) : Frame :=
  { frame with display := b.display, presented := b.presented }

def canvas (b : Backstage) (canvas : Canvas) : Canvas :=
  { canvas with frame := b.frame canvas.frame }

def cover (b : Backstage) (s : Session Stage) : Session Stage :=
  { s with
    stage := { s.stage with canvas := b.canvas s.stage.canvas }
    notes := b.notes
    logs := b.logs
    dispatch := s.dispatch.map fun dispatch => { dispatch with answers := b.answers } }

def hushed (b : Backstage) : Talk where
  notes := Note.allHushed b.notes.toList
  logs := b.logs.toList.filter (!·.refuses)
  answers := b.answers.map StepAnswer.allHushed

/-- The refused frames that are reported. -/
def refusals (b : Backstage) : Nat :=
  Note.allRefusals b.notes.toList + b.logs.toList.countP (·.refuses)

/-- The display was given the frames, and the number of those that it took was counted. -/
structure Hands (b : Backstage) (frames : List Image) (b' : Backstage) : Prop where
  display : b'.display = b.display.presentAll frames
  presented : b'.presented = b.presented + (b.display.taken frames).length

theorem Hands.refl (b : Backstage) : b.Hands [] b :=
  ⟨rfl, rfl⟩

theorem Hands.trans {b b₁ b' : Backstage} {frames frames' : List Image}
    (first : b.Hands frames b₁) (second : b₁.Hands frames' b') :
    b.Hands (frames ++ frames') b' where
  display := by rw [second.display, first.display, Display.presentAll_append]
  presented := by
    rw [second.presented, first.presented, first.display, Display.taken_append,
      List.length_append, Nat.add_assoc]

end Backstage

/-- How a value is hushed, and how many refused frames it reports. -/
structure View (α : Type) where
  hushed : α → α
  refusals : α → Nat

namespace View

/-- The value reports nothing. -/
def plain {α : Type} : View α :=
  ⟨id, fun _ => 0⟩

def answer : View Answer :=
  ⟨Answer.hushed, Answer.refusals⟩

def step : View StepAnswer :=
  ⟨StepAnswer.hushed, StepAnswer.refusals⟩

def steps : View (List StepAnswer) :=
  ⟨StepAnswer.allHushed, StepAnswer.allRefusals⟩

def note : View Note :=
  ⟨Note.hushed, Note.refusals⟩

def prod {α β : Type} (first : View α) (second : View β) : View (α × β) :=
  ⟨fun pair => (first.hushed pair.1, second.hushed pair.2),
    fun pair => first.refusals pair.1 + second.refusals pair.2⟩

def weight {α : Type} (view : View α) : Except Fault α → Nat
  | .ok a => view.refusals a
  | .error _ => 0

@[simp] theorem weight_plain {α : Type} (result : Except Fault α) :
    (View.plain : View α).weight result = 0 := by
  cases result <;> rfl

end View

/-- What is queued, set up and held is blind. In a solo session there is no dispatch. -/
structure BlindScripts (solo : Bool) (events : List (Event Job)) (rules : List Rule)
    (script : List PaintItem) (dispatch : Option Dispatch) : Prop where
  events : ∀ event ∈ events, EventKind.blind solo event.kind = true
  rules : ∀ rule ∈ rules, rule.blind solo = true
  script : PaintItem.allBlind solo script = true
  dispatch : ∀ d, dispatch = some d → solo = false ∧ d.service = false ∧ d.before = none ∧
    ∀ held, d.pending = some held → Step.allBlind solo held = true

abbrev Session.Blind (solo : Bool) (s : Session Stage) : Prop :=
  BlindScripts solo s.queue.events s.rules s.script s.dispatch

namespace Stage

variable {solo : Bool} {α β γ : Type}

/-- Whatever the display takes, the action hands it the same frames, and comes to the same but for
the report of those that were refused; each of them is reported once. The action may depend on the
report of what was before. -/
def ContainedAt (solo : Bool) (given : View β) (made : View α) (act : β → Act α)
    (s : Session Stage) (talk : Talk) : Prop :=
  ∀ input, ∃ frames output s' talk', s'.Blind solo ∧
    ∀ (report : β) (b : Backstage), given.hushed report = input → b.hushed = talk →
      ∃ result b', (act report).run.run (b.cover s) = (result, b'.cover s') ∧
        result.map made.hushed = output ∧ b'.hushed = talk' ∧ b.Hands frames b' ∧
        (solo = true → made.weight result + b'.refusals =
          given.refusals report + b.refusals + b.display.refused frames)

def Contained (solo : Bool) (given : View β) (made : View α) (act : β → Act α) : Prop :=
  ∀ (s : Session Stage) (talk : Talk), s.Blind solo → ContainedAt solo given made act s talk

/-- The same of an action that depends on no report. -/
abbrev Contains (solo : Bool) (made : View α) (act : Act α) : Prop :=
  Contained solo .plain made fun _ : Unit => act

abbrev ContainsAt (solo : Bool) (made : View α) (act : Act α) (s : Session Stage) (talk : Talk) :
    Prop :=
  ContainedAt solo .plain made (fun _ : Unit => act) s talk

variable {given : View β} {made : View α} {mid : View γ} {s s₁ : Session Stage} {talk : Talk}

/-- What comes first may be done without the display. -/
theorem ContainedAt.of_run {act act' : β → Act α}
    (ran : ∀ report (b : Backstage), b.hushed = talk →
      (act report).run.run (b.cover s) = (act' report).run.run (b.cover s₁))
    (contained : ContainedAt solo given made act' s₁ talk) :
    ContainedAt solo given made act s talk := by
  intro input
  obtain ⟨frames, output, s', talk', blind, holds⟩ := contained input
  refine ⟨frames, output, s', talk', blind, fun report b hushed hushed' => ?_⟩
  rw [ran report b hushed']
  exact holds report b hushed hushed'

theorem ContainedAt.bind {act : β → Act γ} {next : γ → Act α}
    (first : ContainedAt solo given mid act s talk) (rest : Contained solo mid made next) :
    ContainedAt solo given made (fun report => act report >>= next) s talk := by
  intro input
  obtain ⟨frames, output, s₁, talk₁, blind₁, holds⟩ := first input
  cases output with
  | error fault =>
    refine ⟨frames, .error fault, s₁, talk₁, blind₁, fun report b hushed hushed' => ?_⟩
    obtain ⟨result, b', ran, same, talks, hands, reports⟩ := holds report b hushed hushed'
    cases result with
    | ok c => cases same
    | error fault' =>
      cases same
      refine ⟨.error fault, b', ?_, rfl, talks, hands, reports⟩
      rw [run_bind, ran]
  | ok output =>
    obtain ⟨frames', output', s', talk', blind', holds'⟩ := rest s₁ talk₁ blind₁ output
    refine ⟨frames ++ frames', output', s', talk', blind', fun report b hushed hushed' => ?_⟩
    obtain ⟨result, b₁, ran, same, talks, hands, reports⟩ := holds report b hushed hushed'
    cases result with
    | error fault => cases same
    | ok c =>
      obtain ⟨result', b', ran', same', talks', hands', reports'⟩ :=
        holds' c b₁ (Except.ok.inj same) talks
      refine ⟨result', b', ?_, same', talks', hands.trans hands', fun alone => ?_⟩
      · rw [run_bind, ran]
        exact ran'
      · have early : mid.refusals c + b₁.refusals =
            given.refusals report + b.refusals + b.display.refused frames := reports alone
        have late : made.weight result' + b'.refusals =
            mid.refusals c + b₁.refusals + b₁.display.refused frames' := reports' alone
        rw [hands.display] at late
        rw [Display.refused_append]
        omega

theorem Contained.bind {act : β → Act γ} {next : γ → Act α}
    (first : Contained solo given mid act) (rest : Contained solo mid made next) :
    Contained solo given made fun report => act report >>= next :=
  fun s talk blind => (first s talk blind).bind rest

/-- What comes after a value that reports nothing. -/
theorem contained_of_plain {next : γ → Act α} (each : ∀ c, Contains solo made (next c)) :
    Contained solo .plain made next := by
  intro s talk blind input
  obtain ⟨frames, output, s', talk', blind', holds⟩ := each input s talk blind ()
  refine ⟨frames, output, s', talk', blind', fun report b same => ?_⟩
  cases same
  exact holds () b rfl

theorem contains_bind {act : Act γ} {next : γ → Act α} (first : Contains solo .plain act)
    (rest : ∀ c, Contains solo made (next c)) : Contains solo made (act >>= next) :=
  first.bind (contained_of_plain rest)

/-- The display has no part in the action. -/
theorem containsAt_of_cover {act : Act α} {result : Except Fault α} {s' : Session Stage}
    (ran : ∀ b : Backstage, act.run.run (b.cover s) = (result, b.cover s')) (blind : s'.Blind solo)
    (silent : made.weight result = 0) : ContainsAt solo made act s talk := by
  intro input
  refine ⟨[], result.map made.hushed, s', talk, blind, fun _ b _ hushed => ?_⟩
  refine ⟨result, b, ran b, rfl, hushed, .refl b, fun _ => ?_⟩
  simp [silent, Display.refused, View.plain]

theorem contains_pure {a : α} (silent : made.refusals a = 0) :
    Contains solo made (pure a : Act α) :=
  fun _ _ blind => containsAt_of_cover (fun _ => rfl) blind silent

theorem contains_throw (fault : Fault) : Contains solo made (throw fault : Act α) :=
  fun _ _ blind => containsAt_of_cover (fun _ => rfl) blind rfl

theorem contains_modify {f : Session Stage → Session Stage}
    (covers : ∀ (b : Backstage) s, f (b.cover s) = b.cover (f s))
    (blind : ∀ s, s.Blind solo → (f s).Blind solo) : Contains solo .plain (modify f : Act Unit) :=
  fun s _ blind' =>
    containsAt_of_cover (fun b => by rw [run_modify, covers b s]) (blind s blind') rfl

/-- A report is kept while something else is done that does not fail. -/
theorem Contained.keep {act : Act γ} {next : β → γ → Act α} (contains : Contains solo mid act)
    (ends : ∀ s, ∃ c s', act.run.run s = (.ok c, s'))
    (rest : Contained solo (given.prod mid) made fun pair => next pair.1 pair.2) :
    Contained solo given made fun report => act >>= next report := by
  intro s talk blind input
  obtain ⟨frames, output, s₁, talk₁, blind₁, holds⟩ := contains s talk blind ()
  cases output with
  | error fault =>
    refine ⟨frames, .error fault, s₁, talk₁, blind₁, fun report b hushed hushed' => ?_⟩
    obtain ⟨result, b', ran, same, -⟩ := holds () b rfl hushed'
    obtain ⟨c, s', ran'⟩ := ends (b.cover s)
    cases ran'.symm.trans ran
    cases same
  | ok output =>
    obtain ⟨frames', output', s', talk', blind', holds'⟩ := rest s₁ talk₁ blind₁ (input, output)
    refine ⟨frames ++ frames', output', s', talk', blind', fun report b hushed hushed' => ?_⟩
    obtain ⟨result, b₁, ran, same, talks, hands, reports⟩ := holds () b rfl hushed'
    cases result with
    | error fault => cases same
    | ok c =>
      have pair : (given.prod mid).hushed (report, c) = (input, output) :=
        Prod.ext hushed (Except.ok.inj same)
      obtain ⟨result', b', ran', same', talks', hands', reports'⟩ := holds' (report, c) b₁ pair talks
      refine ⟨result', b', ?_, same', talks', hands.trans hands', fun alone => ?_⟩
      · rw [run_bind, ran]
        exact ran'
      · have early : mid.refusals c + b₁.refusals =
            0 + b.refusals + b.display.refused frames := reports alone
        have late : made.weight result' + b'.refusals = given.refusals report + mid.refusals c +
            b₁.refusals + b₁.display.refused frames' := reports' alone
        rw [hands.display] at late
        rw [Display.refused_append]
        omega

theorem contained_return {k : β → α} {K : β → α}
    (hush : ∀ report, made.hushed (k report) = K (given.hushed report))
    (weigh : ∀ report, made.refusals (k report) = given.refusals report) :
    Contained solo given made fun report => (pure (k report) : Act α) := by
  intro s talk blind input
  refine ⟨[], .ok (K input), s, talk, blind, fun report b hushed hushed' => ?_⟩
  refine ⟨.ok (k report), b, rfl, ?_, hushed', .refl b, fun _ => ?_⟩
  · rw [← hushed, ← hush]
    rfl
  · simp [View.weight, weigh, Display.refused]

theorem contained_note : Contained solo .note .plain fun entry => (Act.note entry : Act Unit) := by
  intro s talk blind input
  refine ⟨[], .ok (), s, { talk with notes := talk.notes ++ [input] }, blind,
    fun entry b hushed hushed' => ?_⟩
  refine ⟨.ok (), { b with notes := b.notes.push entry }, rfl, rfl, ?_, ⟨rfl, rfl⟩, fun _ => ?_⟩
  · rw [← hushed, ← hushed']
    simp [Backstage.hushed, Note.allHushed_append, Note.allHushed, View.note]
  · simp [Backstage.refusals, Note.allRefusals_append, Note.allRefusals, View.weight, View.plain,
      View.note, Display.refused]
    omega

/-- What is not the report of nested steps. -/
theorem contains_note {entry : Note} (silent : entry.refusals = 0) :
    Contains solo .plain (Act.note entry : Act Unit) := by
  intro s talk blind input
  obtain ⟨frames, output, s', talk', blind', holds⟩ :=
    contained_note s talk blind entry.hushed
  refine ⟨frames, output, s', talk', blind', fun _ b _ hushed => ?_⟩
  obtain ⟨result, b', ran, same, talks, hands, reports⟩ := holds entry b rfl hushed
  have none : View.note.refusals entry = View.plain.refusals () := silent
  exact ⟨result, b', ran, same, talks, hands, by rwa [← none]⟩

theorem contained_noteNested :
    Contained solo .steps .plain fun answers => (Act.note (.nested answers) : Act Unit) := by
  intro s talk blind input
  obtain ⟨frames, output, s', talk', blind', holds⟩ := contained_note s talk blind (.nested input)
  refine ⟨frames, output, s', talk', blind', fun answers b hushed => ?_⟩
  have nested : View.note.hushed (.nested answers) = .nested input := congrArg Note.nested hushed
  exact holds (.nested answers) b nested

theorem contains_log {entry : LogEntry} (silent : entry.refuses = false) :
    Contains solo .plain (Act.log entry : Act Unit) := by
  intro s talk blind input
  refine ⟨[], .ok (), s, { talk with logs := talk.logs ++ [entry] }, blind,
    fun _ b _ hushed => ?_⟩
  refine ⟨.ok (), { b with logs := b.logs.push entry }, rfl, rfl, ?_, ⟨rfl, rfl⟩, fun _ => ?_⟩
  · rw [← hushed]
    simp [Backstage.hushed, silent]
  · simp [Backstage.refusals, silent, View.weight, View.plain, Display.refused]

end Stage

end Handset
