import Handset.Proofs.Change
import Handset.Proofs.Life

/-! The log of every reachable world is lawful, and the queue, the event at hand and the repaints in
place are what the log says they are. -/

namespace Handset

variable {Work : Type}

/-- The phase of a paint cycle is the one that the marks tell of. -/
def PaintPhase.Fits (log : List (Mark Work)) (id : Nat) : PaintPhase → Prop
  | .look => ¬ Looked log id
  | .wait => ¬ Looked log id
  | .inside => Looked log id
  | .ended => Looked log id

def Phase.Fits (log : List (Mark Work)) (event : Event Work) : Phase → Prop
  | .start => ¬ Looked log event.id ∧ .resized event.id ∉ log
  | .paint phase => event.tag = .paint ∧ phase.Fits log event.id
  | .recompute => event.tag = .displayResized ∧ .resized event.id ∉ log
  | .settle _ => event.tag = .displayResized ∧ .resized event.id ∈ log
  | .tell _ => event.tag = .displayResized ∧ .resized event.id ∈ log
  | .leave => event.tag ≠ .paint ∧
      (event.tag = .displayResized →
        .resized event.id ∈ log ∨ .faulted (some event.id) ∈ log)

structure Ledger (w : World Work) : Prop where
  lawful : Lawful w.log
  counted : ∀ id, w.queue.lastId < id → life id w.log = .unborn
  sorted : w.queue.events.Pairwise (·.id < ·.id)
  lone : w.queue.events.Pairwise fun a b => ¬ (a.tag = .paint ∧ b.tag = .paint)
  queued : ∀ event,
    event ∈ w.queue.events ↔ Admitted w.log event ∧ life event.id w.log = .waiting
  inTurn : ∀ id,
    life id w.log = .running .inTurn ↔ ∃ event, w.atHand = some event ∧ event.id = id
  atHand : ∀ event, w.atHand = some event → Admitted w.log event
  phase : ∀ turn, w.turn = some turn → turn.phase.Fits w.log turn.event
  current : w.queue.current = w.atHand.map fun event => (event.tag, event.id)
  inPlace : ∀ id, life id w.log = .running .inPlace ↔ id ∈ w.runs.map (·.id)
  paints : ∀ id ∈ w.runs.map (·.id), HasTag w.log id .paint
  phases : ∀ run ∈ w.runs, run.phase.Fits w.log run.id
  single : w.runs.length ≤ 1
  inlineRuns : w.queue.inlineRuns = (w.runs.map (·.thread)).map fun thread => (.paint, thread)

variable {w w' : World Work} {marks log : List (Mark Work)} {event : Event Work} {id : Nat}

theorem life_notes (notes : ∀ mark ∈ marks, mark.subject = none) (id : Nat) :
    life id (marks ++ log) = life id log := by
  induction marks with
  | nil => rfl
  | cons mark marks ih =>
    have rest := ih fun mark mem => notes mark (List.mem_cons_of_mem _ mem)
    exact (life_of_ne (by simp [notes mark List.mem_cons_self])).trans rest

theorem admitted_notes (notes : ∀ mark ∈ marks, mark.subject = none) :
    Admitted (marks ++ log) event ↔ Admitted log event := by
  refine exists_congr fun cause => ?_
  rw [List.mem_append, or_iff_right]
  exact fun mem => nomatch notes _ mem

/-- None of the marks tells how far the event with this number is. -/
def Silent (marks : List (Mark Work)) (id : Nat) : Prop :=
  ¬ Looked marks id ∧ .resized id ∉ marks

theorem looked_append {after before : List (Mark Work)} :
    Looked (after ++ before) id ↔ Looked after id ∨ Looked before id := by
  simp only [Looked, List.mem_append]
  exact or_or_or_comm

theorem PaintPhase.Fits.keep {phase : PaintPhase} (h : phase.Fits log id)
    (silent : Silent marks id) : phase.Fits (marks ++ log) id := by
  cases phase with
  | look | wait => exact fun looked => (looked_append.mp looked).elim silent.1 h
  | inside | ended => exact looked_append.mpr (.inr h)

theorem Phase.Fits.keep {phase : Phase} (h : phase.Fits log event)
    (silent : Silent marks event.id) : phase.Fits (marks ++ log) event := by
  have fresh (unresized : .resized event.id ∉ log) : .resized event.id ∉ marks ++ log :=
    fun mem => (List.mem_append.mp mem).elim silent.2 unresized
  cases phase with
  | start => exact ⟨fun looked => (looked_append.mp looked).elim silent.1 h.1, fresh h.2⟩
  | paint phase => exact ⟨h.1, h.2.keep silent⟩
  | recompute => exact ⟨h.1, fresh h.2⟩
  | settle | tell => exact ⟨h.1, List.mem_append_right _ h.2⟩
  | leave =>
    exact ⟨h.1, fun resize => (h.2 resize).imp (List.mem_append_right _) (List.mem_append_right _)⟩

theorem silent_of_subject {mark : Mark Work} {other : Nat} (subject : mark.subject = some other)
    (id : Nat) : Silent [mark] id := by
  cases mark with
  | admitted | began | finished | removed => simp [Silent, Looked]
  | painted | skipped | resized | told | composed | faulted => cases subject

theorem PaintPhase.Fits.cons {phase : PaintPhase} {mark : Mark Work} {other : Nat}
    (h : phase.Fits log id) (subject : mark.subject = some other) :
    phase.Fits (mark :: log) id :=
  show phase.Fits ([mark] ++ log) id from h.keep (silent_of_subject subject id)

theorem Phase.Fits.cons {phase : Phase} {mark : Mark Work} {other : Nat}
    (h : phase.Fits log event) (subject : mark.subject = some other) :
    phase.Fits (mark :: log) event :=
  show phase.Fits ([mark] ++ log) event from h.keep (silent_of_subject subject event.id)

namespace Ledger

theorem start (canvas : Canvas) : Ledger ({ canvas } : World Work) where
  lawful := .nil
  counted _ _ := rfl
  sorted := .nil
  lone := .nil
  queued _ := by simp [life]
  inTurn _ := by simp [life, World.atHand]
  atHand := by simp [World.atHand]
  phase := by simp
  current := rfl
  inPlace _ := by simp [life]
  paints := by simp
  phases := by simp
  single := Nat.zero_le 1
  inlineRuns := rfl

/-- Handling goes on: nothing begins and nothing ends. -/
theorem goOn {canvas : Canvas} {calls : List Call} {turn : Option (Turn Work)}
    {runs : List InPlace} (h : Ledger w) (notes : ∀ mark ∈ marks, mark.subject = none)
    (lawful : Lawful (marks ++ w.log))
    (atHand : turn.map (·.event) = w.atHand)
    (ids : runs.map (·.id) = w.runs.map (·.id))
    (threads : runs.map (·.thread) = w.runs.map (·.thread))
    (phase : ∀ t, turn = some t → t.phase.Fits (marks ++ w.log) t.event)
    (phases : ∀ run ∈ runs, run.phase.Fits (marks ++ w.log) run.id) :
    Ledger { w with canvas, calls, turn, runs, log := marks ++ w.log } where
  lawful := lawful
  counted id lt := (life_notes notes id).trans (h.counted id lt)
  sorted := h.sorted
  lone := h.lone
  queued event := by
    rw [admitted_notes notes, life_notes notes]
    exact h.queued event
  inTurn id := by
    rw [life_notes notes, h.inTurn, ← atHand]
    rfl
  atHand event eq := by
    rw [admitted_notes notes]
    exact h.atHand event (atHand ▸ eq)
  phase := phase
  current := by
    rw [h.current, ← atHand]
    rfl
  inPlace id := by
    rw [life_notes notes, h.inPlace, ids]
  paints id mem := (h.paints id (ids ▸ mem)).mono (List.subset_append_right ..)
  phases := phases
  single := by
    rw [← List.length_map (·.id), ids, List.length_map]
    exact h.single
  inlineRuns := by
    rw [h.inlineRuns, threads]

theorem noteAll {canvas : Canvas} {calls : List Call} (h : Ledger w)
    (notes : ∀ mark ∈ marks, mark.subject = none) (lawful : Lawful (marks ++ w.log))
    (silent : ∀ id, Silent marks id) :
    Ledger { w with canvas, calls, log := marks ++ w.log } :=
  h.goOn notes lawful rfl rfl rfl (fun turn turning => (h.phase turn turning).keep (silent _))
    fun run mem => (h.phases run mem).keep (silent _)

theorem waiting (h : Ledger w) (mem : event ∈ w.queue.events) :
    life event.id w.log = .waiting :=
  ((h.queued event).mp mem).2

theorem of_waiting (h : Ledger w) (waiting : life id w.log = .waiting) :
    ∃ event ∈ w.queue.events, event.id = id := by
  have born : life id w.log ≠ .unborn := by simp [waiting]
  obtain ⟨event, admitted, rfl⟩ := h.lawful.admitted born
  exact ⟨event, (h.queued event).mpr ⟨admitted, waiting⟩, rfl⟩

theorem old (h : Ledger w) (admitted : Admitted w.log event) : event.id ≤ w.queue.lastId :=
  Nat.le_of_not_lt fun new => h.lawful.born admitted (h.counted _ new)

theorem enqueue {calls : List Call} (h : Ledger w) (kind : EventKind Work) (cause : Cause)
    (fresh : kind.tag = .paint → ∀ event ∈ w.queue.events, event.tag ≠ .paint) :
    Ledger { w with
      queue := w.queue.enqueue kind, calls
      log := .admitted ⟨w.queue.lastId + 1, kind⟩ cause :: w.log } := by
  have unborn : life (w.queue.lastId + 1) w.log = .unborn := h.counted _ (Nat.lt_succ_self _)
  have keeps (way : Way) (id : Nat) :
      life id (.admitted ⟨w.queue.lastId + 1, kind⟩ cause :: w.log) = .running way ↔
        life id w.log = .running way :=
    life_keeps rfl (by simp [unborn]) (by simp [life]) id
  have other {id : Nat} (le : id ≠ w.queue.lastId + 1) :
      life id (.admitted ⟨w.queue.lastId + 1, kind⟩ cause :: w.log) = life id w.log :=
    if_neg le.symm
  constructor
  case lawful => exact .cons (fun id le => h.counted id le) h.lawful
  case counted =>
    intro id lt
    have lt : w.queue.lastId + 1 < id := lt
    exact (other (by omega)).trans (h.counted id (by omega))
  case sorted =>
    refine List.pairwise_append.mpr ⟨h.sorted, List.pairwise_singleton .., ?_⟩
    intro event queued new mem
    cases List.mem_singleton.mp mem
    exact Nat.lt_succ_of_le (h.old ((h.queued event).mp queued).1)
  case lone =>
    refine List.pairwise_append.mpr ⟨h.lone, List.pairwise_singleton .., ?_⟩
    rintro event queued new mem ⟨paint, paint'⟩
    cases List.mem_singleton.mp mem
    exact fresh paint' event queued paint
  case queued =>
    intro event
    constructor
    · intro mem
      rcases List.mem_append.mp mem with queued | new
      · obtain ⟨admitted, waiting⟩ := (h.queued event).mp queued
        have le := h.old admitted
        exact ⟨admitted.mono (List.subset_cons_self ..), (other (by omega)).trans waiting⟩
      · cases List.mem_singleton.mp new
        exact ⟨⟨cause, List.mem_cons_self⟩, if_pos rfl⟩
    · rintro ⟨⟨cause', mem⟩, waiting⟩
      rcases List.mem_cons.mp mem with new | before
      · cases new
        exact List.mem_append_right _ (List.mem_singleton_self _)
      · have admitted : Admitted w.log event := ⟨cause', before⟩
        have le := h.old admitted
        exact List.mem_append_left _ ((h.queued event).mpr
          ⟨admitted, (other (by omega)).symm.trans waiting⟩)
  case inTurn => exact fun id => (keeps _ id).trans (h.inTurn id)
  case atHand => exact fun event eq => (h.atHand event eq).mono (List.subset_cons_self ..)
  case phase => exact fun turn eq => (h.phase turn eq).cons rfl
  case current => exact h.current
  case inPlace => exact fun id => (keeps _ id).trans (h.inPlace id)
  case paints => exact fun id mem => (h.paints id mem).mono (List.subset_cons_self ..)
  case phases => exact fun run mem => (h.phases run mem).cons rfl
  case single => exact h.single
  case inlineRuns => exact h.inlineRuns

theorem queued_rest {mark : Mark Work} {before after : List (Event Work)} (h : Ledger w)
    (events : w.queue.events = before ++ event :: after) (subject : mark.subject = some event.id)
    (left : life event.id (mark :: w.log) ≠ .waiting)
    (old : ∀ event cause, mark ≠ .admitted event cause) (other : Event Work) :
    other ∈ before ++ after ↔
      Admitted (mark :: w.log) other ∧ life other.id (mark :: w.log) = .waiting := by
  have sorted := h.sorted
  rw [events, List.pairwise_append, List.pairwise_cons] at sorted
  obtain ⟨-, ⟨later, -⟩, earlier⟩ := sorted
  have apart (mem : other ∈ before ++ after) : other.id ≠ event.id := by
    rcases List.mem_append.mp mem with mem | mem
    · have := earlier other mem event List.mem_cons_self
      omega
    · have := later other mem
      omega
  have same (ne : other.id ≠ event.id) :
      life other.id (mark :: w.log) = life other.id w.log :=
    life_of_ne (by simpa [subject] using ne.symm)
  constructor
  · intro mem
    have queued : other ∈ w.queue.events := by
      rw [events]
      exact ((List.sublist_cons_self ..).append_left before).subset mem
    obtain ⟨admitted, waiting⟩ := (h.queued other).mp queued
    exact ⟨admitted.mono (List.subset_cons_self ..), (same (apart mem)).trans waiting⟩
  · rintro ⟨admitted, waiting⟩
    have ne : other.id ≠ event.id := fun eq => left (eq ▸ waiting)
    have queued := (h.queued other).mpr ⟨admitted.of_cons old, (same ne).symm.trans waiting⟩
    rw [events, List.mem_append, List.mem_cons] at queued
    rcases queued with mem | rfl | mem
    · exact List.mem_append_left _ mem
    · exact absurd rfl ne
    · exact List.mem_append_right _ mem

theorem next {rest : List (Event Work)} (h : Ledger w) (idle : w.turn = none)
    (events : w.queue.events = event :: rest) :
    Ledger { w with
      queue := { w.queue.leave event.tag with
        events := rest, current := some (event.tag, event.id) }
      turn := some ⟨event, .start⟩
      log := .began event.id .inTurn :: w.log } := by
  obtain ⟨admitted, waiting⟩ := (h.queued event).mp (events ▸ List.mem_cons_self)
  obtain ⟨first, sorted⟩ := List.pairwise_cons.mp (events ▸ h.sorted)
  have began : life event.id (.began event.id .inTurn :: w.log) = .running .inTurn := if_pos rfl
  have alone (id : Nat) : life id w.log ≠ .running .inTurn := by
    simp [h.inTurn, World.atHand, idle]
  constructor
  case lawful =>
    -- What waits with a smaller number would be ahead in the queue, which is sorted.
    refine .cons ⟨waiting, fun id lt still => ?_, alone⟩ h.lawful
    obtain ⟨early, queued, rfl⟩ := h.of_waiting still
    rcases List.mem_cons.mp (events ▸ queued) with rfl | late
    · omega
    · have := first early late
      omega
  case counted =>
    exact fun id lt => (life_keeps rfl (by simp [waiting]) (by simp [began]) id).mpr
      (h.counted id lt)
  case sorted => exact sorted
  case lone => exact (List.pairwise_cons.mp (events ▸ h.lone)).2
  case queued =>
    have split : w.queue.events = [] ++ event :: rest := events
    exact h.queued_rest split rfl (by simp [began]) (by simp)
  case inTurn =>
    intro id
    by_cases same : event.id = id
    · simp [World.atHand, life, same]
    · simp [World.atHand, life, same, alone]
  case atHand =>
    rintro late ⟨⟩
    exact admitted.mono (List.subset_cons_self ..)
  case phase =>
    rintro turn ⟨⟩
    have fits : Phase.Fits w.log event .start :=
      ⟨h.lawful.not_looked waiting, h.lawful.not_resized waiting⟩
    exact fits.cons rfl
  case current => rfl
  case inPlace =>
    exact fun id => (life_keeps rfl (by simp [waiting]) (by simp [began]) id).trans (h.inPlace id)
  case paints => exact fun id mem => (h.paints id mem).mono (List.subset_cons_self ..)
  case phases => exact fun run mem => (h.phases run mem).cons rfl
  case single => exact h.single
  case inlineRuns => exact h.inlineRuns

theorem lone_of {before after : List (Event Work)} {other : Event Work} (h : Ledger w)
    (events : w.queue.events = before ++ event :: after) (queued : other ∈ w.queue.events)
    (ne : other ≠ event) : ¬ (event.tag = .paint ∧ other.tag = .paint) := by
  have lone := h.lone
  rw [events, List.pairwise_append, List.pairwise_cons] at lone
  obtain ⟨-, ⟨later, -⟩, earlier⟩ := lone
  rw [events, List.mem_append, List.mem_cons] at queued
  rcases queued with mem | eq | mem
  · exact fun both => earlier other mem event List.mem_cons_self both.symm
  · exact absurd eq ne
  · exact later other mem

theorem take {before after : List (Event Work)} {thread : Nat} (h : Ledger w)
    (free : w.queue.inProgress .paint = false) (paint : event.tag = .paint)
    (events : w.queue.events = before ++ event :: after) :
    Ledger { w with
      queue := { w.queue.leave .paint with
        events := before ++ after, inlineRuns := w.queue.inlineRuns ++ [(.paint, thread)] }
      runs := w.runs ++ [⟨event.id, thread, .look⟩]
      log := .began event.id .inPlace :: w.log } := by
  obtain ⟨admitted, waiting⟩ := (h.queued event).mp (by simp [events])
  have tag : HasTag w.log event.id .paint := ⟨event, admitted, rfl, paint⟩
  have began : life event.id (.began event.id .inPlace :: w.log) = .running .inPlace := if_pos rfl
  obtain ⟨unturned, unplaced⟩ := Bool.or_eq_false_iff.mp free
  have empty : w.runs = [] := by
    cases runs : w.runs with
    | nil => rfl
    | cons run rest => simp [h.inlineRuns, runs] at unplaced
  have sub : (before ++ after).Sublist w.queue.events := by
    rw [events]
    exact (List.sublist_cons_self ..).append_left before
  constructor
  case lawful =>
    -- No other repaint waits, as two would have been merged, and none runs, as the guard says.
    refine .cons ⟨waiting, tag, ?_⟩ h.lawful
    rintro _ ne ⟨other, admitted', rfl, paint'⟩
    cases now : life other.id w.log with
    | unborn => exact absurd now (h.lawful.born admitted')
    | waiting =>
      have queued := (h.queued other).mpr ⟨admitted', now⟩
      exact absurd ⟨paint, paint'⟩ (h.lone_of events queued (fun eq => ne (congrArg Event.id eq)))
    | running way =>
      cases way with
      | inTurn =>
        obtain ⟨hand, eq, same⟩ := (h.inTurn _).mp now
        rw [h.lawful.unique (h.atHand hand eq) admitted' same] at eq
        simp [h.current, eq, paint'] at unturned
      | inPlace => simpa [empty] using (h.inPlace _).mp now
    | done => exact .inl rfl
    | removed => exact .inr rfl
  case counted =>
    exact fun id lt => (life_keeps rfl (by simp [waiting]) (by simp [began]) id).mpr
      (h.counted id lt)
  case sorted => exact h.sorted.sublist sub
  case lone => exact h.lone.sublist sub
  case queued => exact h.queued_rest events rfl (by simp [began]) (by simp)
  case inTurn =>
    exact fun id => (life_keeps rfl (by simp [waiting]) (by simp [began]) id).trans (h.inTurn id)
  case atHand => exact fun late eq => (h.atHand late eq).mono (List.subset_cons_self ..)
  case phase => exact fun turn eq => (h.phase turn eq).cons rfl
  case current => exact h.current
  case inPlace =>
    intro id
    by_cases same : event.id = id
    · simp [life, same]
    · simp [life, same, h.inPlace, empty, Ne.symm same]
  case paints =>
    intro id mem
    simp only [empty, List.nil_append, List.map_cons, List.map_nil, List.mem_singleton] at mem
    rw [mem]
    exact tag.mono (List.subset_cons_self ..)
  case phases =>
    intro run mem
    simp only [empty, List.nil_append, List.mem_singleton] at mem
    subst mem
    have fits : PaintPhase.Fits w.log event.id .look := h.lawful.not_looked waiting
    exact fits.cons rfl
  case single => simp [empty]
  case inlineRuns => simp [h.inlineRuns]

theorem queued_finished (h : Ledger w) {way : Way} (running : life id w.log = .running way)
    (other : Event Work) :
    other ∈ w.queue.events ↔ Admitted (.finished id :: w.log) other ∧
      life other.id (.finished id :: w.log) = .waiting := by
  refine (h.queued other).trans (and_congr ⟨fun old => old.mono (List.subset_cons_self ..),
    fun new => new.of_cons (by simp)⟩ ?_)
  exact (life_keeps rfl (by simp [running]) (by simp [life]) other.id).symm

theorem finish {turn : Turn Work} (h : Ledger w) (turning : w.turn = some turn)
    (last : turn.phase = .paint .ended ∨ turn.phase = .leave) : Ledger (w.finish turn.event) := by
  have hand : w.atHand = some turn.event := by simp [World.atHand, turning]
  have running : life turn.event.id w.log = .running .inTurn :=
    (h.inTurn _).mpr ⟨turn.event, hand, rfl⟩
  have tagged : HasTag w.log turn.event.id turn.event.tag :=
    ⟨turn.event, h.atHand _ hand, rfl, rfl⟩
  have fits := h.phase turn turning
  constructor
  case lawful =>
    refine .cons ⟨⟨_, running⟩, fun paint => ?_, fun resize => ?_⟩ h.lawful
    · have tag := h.lawful.hasTag_unique tagged paint
      rcases last with last | last <;> rw [last] at fits
      · exact fits.2
      · exact absurd tag fits.1
    · have tag := h.lawful.hasTag_unique tagged resize
      rcases last with last | last <;> rw [last] at fits
      · rw [fits.1] at tag
        cases tag
      · exact fits.2 tag
  case counted =>
    exact fun id lt => (life_keeps rfl (by simp [running]) (by simp [life]) id).mpr
      (h.counted id lt)
  case sorted => exact h.sorted
  case lone => exact h.lone
  case queued => exact h.queued_finished running
  case inTurn =>
    intro id
    by_cases same : turn.event.id = id
    · simp [World.finish, World.atHand, life, same]
    · simp [World.finish, World.atHand, life, same, h.inTurn, turning]
  case atHand => simp [World.finish, World.atHand]
  case phase => simp [World.finish]
  case current => rfl
  case inPlace =>
    exact fun id => (life_keeps rfl (by simp [running]) (by simp [life]) id).trans (h.inPlace id)
  case paints => exact fun id mem => (h.paints id mem).mono (List.subset_cons_self ..)
  case phases => exact fun run mem => (h.phases run mem).cons rfl
  case single => exact h.single
  case inlineRuns => exact h.inlineRuns

theorem runs_eq {i : Nat} {run : InPlace} (h : Ledger w) (running : w.runs[i]? = some run) :
    i = 0 ∧ w.runs = [run] := by
  have single := h.single
  match runs : w.runs, i with
  | [], _ => simp [runs] at running
  | [only], 0 => simpa [runs] using running
  | [only], i + 1 => simp [runs] at running
  | _ :: _ :: _, _ => simp [runs] at single

theorem finishInline {i : Nat} {run : InPlace} (h : Ledger w) (running : w.runs[i]? = some run)
    (last : run.phase = .ended) :
    Ledger { w with
      queue := w.queue.finishInline .paint run.thread
      runs := w.runs.eraseIdx i
      log := .finished run.id :: w.log } := by
  obtain ⟨rfl, runs⟩ := h.runs_eq running
  have placed : life run.id w.log = .running .inPlace := (h.inPlace _).mpr (by simp [runs])
  have tagged : HasTag w.log run.id .paint := h.paints _ (by simp [runs])
  have fits := h.phases run (by simp [runs])
  constructor
  case lawful =>
    refine .cons ⟨⟨_, placed⟩, fun _ => ?_, fun resize => ?_⟩ h.lawful
    · rw [last] at fits
      exact fits
    · cases h.lawful.hasTag_unique tagged resize
  case counted =>
    exact fun id lt => (life_keeps rfl (by simp [placed]) (by simp [life]) id).mpr
      (h.counted id lt)
  case sorted => exact h.sorted
  case lone => exact h.lone
  case queued => exact h.queued_finished placed
  case inTurn =>
    exact fun id => (life_keeps rfl (by simp [placed]) (by simp [life]) id).trans (h.inTurn id)
  case atHand => exact fun event eq => (h.atHand event eq).mono (List.subset_cons_self ..)
  case phase => exact fun turn eq => (h.phase turn eq).cons rfl
  case current => exact h.current
  case inPlace =>
    intro id
    by_cases same : run.id = id
    · simp [runs, life, same]
    · simp [runs, life, same, h.inPlace, Ne.symm same]
  case paints => simp [runs]
  case phases => simp [runs]
  case single => simp [runs]
  case inlineRuns => simp [Queue.finishInline, Queue.complete, h.inlineRuns, runs]

theorem lawful_removed {events : List (Event Work)} (lawful : Lawful log)
    (waiting : ∀ event ∈ events, life event.id log = .waiting)
    (apart : events.Pairwise (·.id < ·.id)) :
    Lawful (removals events ++ log) ∧ ∀ id, life id (removals events ++ log) =
      if ∃ event ∈ events, event.id = id then .removed else life id log := by
  induction events with
  | nil => exact ⟨lawful, fun id => by simp [removals]⟩
  | cons event events ih =>
    obtain ⟨first, apart⟩ := List.pairwise_cons.mp apart
    have rest : ∀ other ∈ events, life other.id log = .waiting :=
      fun other mem => waiting other (List.mem_cons_of_mem _ mem)
    obtain ⟨lawful', lives⟩ := ih rest apart
    have ne : ¬ ∃ other ∈ events, other.id = event.id := by
      rintro ⟨other, mem, same⟩
      have := first other mem
      omega
    have still : life event.id (removals events ++ log) = .waiting := by
      rw [lives, if_neg ne]
      exact waiting event List.mem_cons_self
    refine ⟨.cons still lawful', fun id => ?_⟩
    by_cases same : event.id = id
    · simp [removals, life, same]
    · exact (if_neg same).trans ((lives id).trans (by simp [same]))

theorem drop {p : Event Work → Bool} {queued : Tally} {closed : Bool} (h : Ledger w) :
    Ledger { w with
      queue := { w.queue with
        events := w.queue.events.filter fun event => !p event, queued, closed }
      log := removals (w.queue.events.filter p) ++ w.log } := by
  have waiting (event : Event Work) (mem : event ∈ w.queue.events.filter p) :
      life event.id w.log = .waiting :=
    h.waiting (List.mem_filter.mp mem).1
  obtain ⟨lawful, lives⟩ := lawful_removed h.lawful waiting (h.sorted.filter p)
  have keeps (stage : Life) (was : stage ≠ .waiting) (is : stage ≠ .removed) (id : Nat) :
      life id (removals (w.queue.events.filter p) ++ w.log) = stage ↔
        life id w.log = stage := by
    rw [lives]
    split
    · rename_i removed
      obtain ⟨event, mem, rfl⟩ := removed
      rw [waiting event mem]
      exact iff_of_false is.symm was.symm
    · rfl
  have notes (event : Event Work) :
      Admitted (removals (w.queue.events.filter p) ++ w.log) event ↔
        Admitted w.log event := by
    simp [Admitted, removals]
  have silent (id : Nat) : Silent (removals (w.queue.events.filter p)) id := by
    simp [Silent, Looked, removals]
  constructor
  case lawful => exact lawful
  case counted => exact fun id lt => (keeps .unborn nofun nofun id).mpr (h.counted id lt)
  case sorted => exact h.sorted.filter _
  case lone => exact h.lone.filter _
  case queued =>
    intro event
    rw [notes, lives, List.mem_filter, h.queued, and_assoc]
    refine and_congr_right fun admitted => ?_
    by_cases gone : ∃ other ∈ w.queue.events.filter p, other.id = event.id
    · obtain ⟨other, mem, same⟩ := gone
      have eq : other = event :=
        h.lawful.unique ((h.queued other).mp (List.mem_filter.mp mem).1).1 admitted same
      subst eq
      have := (List.mem_filter.mp mem).2
      rw [if_pos ⟨other, mem, rfl⟩]
      simp [this]
    · rw [if_neg gone]
      refine ⟨And.left, fun still => ⟨still, ?_⟩⟩
      have queued := (h.queued event).mpr ⟨admitted, still⟩
      cases selected : p event with
      | false => rfl
      | true => exact absurd ⟨event, List.mem_filter.mpr ⟨queued, selected⟩, rfl⟩ gone
  case inTurn => exact fun id => (keeps (.running .inTurn) nofun nofun id).trans (h.inTurn id)
  case atHand => exact fun event eq => (notes event).mpr (h.atHand event eq)
  case phase => exact fun turn eq => (h.phase turn eq).keep (silent _)
  case current => exact h.current
  case inPlace => exact fun id => (keeps (.running .inPlace) nofun nofun id).trans (h.inPlace id)
  case paints => exact fun id mem => (h.paints id mem).mono (List.subset_append_right ..)
  case phases => exact fun run mem => (h.phases run mem).keep (silent _)
  case single => exact h.single
  case inlineRuns => exact h.inlineRuns

end Ledger

/-- Marks with which the handling of one event goes on. -/
structure Notes (marks log : List (Mark Work)) (id : Nat) : Prop where
  lawful : Lawful (marks ++ log)
  subject : ∀ mark ∈ marks, mark.subject = none
  silent : ∀ other ≠ id, Silent marks other

theorem Notes.nil (lawful : Lawful log) : Notes [] log id :=
  ⟨lawful, by simp, by simp [Silent, Looked]⟩

theorem Notes.one {mark : Mark Work} (fits : Fits log mark) (lawful : Lawful log)
    (subject : mark.subject = none) (silent : ∀ other ≠ id, Silent [mark] other) :
    Notes [mark] log id :=
  ⟨.cons fits lawful, by simpa using subject, silent⟩

theorem Cycle.notes {canvas : Canvas} {phase phase' : PaintPhase} {way : Way}
    (cycle : Cycle canvas id phase marks phase') (lawful : Lawful log)
    (running : life id log = .running way) (paint : HasTag log id .paint)
    (fits : phase.Fits log id) : Notes marks log id ∧ phase'.Fits (marks ++ log) id := by
  cases cycle with
  | skip =>
    have look : Fits log (.skipped id) := ⟨⟨way, running⟩, paint, fits⟩
    exact ⟨.one look lawful rfl (by simp +contextual [Silent, Looked]), .inr List.mem_cons_self⟩
  | wait => exact ⟨.nil lawful, fits⟩
  | paint =>
    have look : Fits log (.painted id) := ⟨⟨way, running⟩, paint, fits⟩
    exact ⟨.one look lawful rfl (by simp +contextual [Silent, Looked]), .inl List.mem_cons_self⟩
  | leave => exact ⟨.nil lawful, fits⟩
  | compose =>
    exact ⟨.one trivial lawful rfl (by simp [Silent, Looked]),
      fits.mono (List.subset_cons_self ..)⟩

theorem Advance.notes {canvas : Canvas} {phase phase' : Phase}
    (advance : Advance canvas event phase marks phase') (lawful : Lawful log)
    (running : life event.id log = .running .inTurn) (admitted : Admitted log event)
    (fits : phase.Fits log event) :
    Notes marks log event.id ∧ phase'.Fits (marks ++ log) event := by
  cases advance with
  | enter paint => exact ⟨.nil lawful, paint, fits.1⟩
  | cycle cycle =>
    obtain ⟨notes, fits'⟩ := cycle.notes lawful running ⟨event, admitted, rfl, fits.1⟩ fits.2
    exact ⟨notes, fits.1, fits'⟩
  | notice kind =>
    have tag : event.tag = .sizeChanged := by simp [Event.tag, kind, EventKind.tag]
    exact ⟨.one trivial lawful rfl (by simp [Silent, Looked]), by simp [tag], by simp [tag]⟩
  | leave paint _ resize => exact ⟨.nil lawful, paint, fun same => absurd same resize⟩
  | report => exact ⟨.nil lawful, fits⟩
  | settle => exact ⟨.nil lawful, by simp [fits.1], fun _ => .inl fits.2⟩
  | tell =>
    exact ⟨.one trivial lawful rfl (by simp [Silent, Looked]), by simp [fits.1],
      fun _ => .inl (List.mem_cons_of_mem _ fits.2)⟩

namespace Ledger

theorem turn_facts {turn : Turn Work} (h : Ledger w) (turning : w.turn = some turn) :
    Admitted w.log turn.event ∧ life turn.event.id w.log = .running .inTurn ∧
      turn.phase.Fits w.log turn.event := by
  have hand : w.atHand = some turn.event := by simp [World.atHand, turning]
  exact ⟨h.atHand _ hand, (h.inTurn _).mpr ⟨_, hand, rfl⟩, h.phase turn turning⟩

theorem run_facts {i : Nat} {run : InPlace} (h : Ledger w) (running : w.runs[i]? = some run) :
    HasTag w.log run.id .paint ∧ life run.id w.log = .running .inPlace ∧
      run.phase.Fits w.log run.id := by
  obtain ⟨-, runs⟩ := h.runs_eq running
  have mem : run.id ∈ w.runs.map (·.id) := by simp [runs]
  exact ⟨h.paints _ mem, (h.inPlace _).mpr mem, h.phases run (by simp [runs])⟩

theorem goOn_turn {canvas : Canvas} {turn : Turn Work} {phase : Phase} (h : Ledger w)
    (turning : w.turn = some turn) (notes : Notes marks w.log turn.event.id)
    (fits : phase.Fits (marks ++ w.log) turn.event) :
    Ledger { w with canvas, turn := some { turn with phase }, log := marks ++ w.log } := by
  obtain ⟨-, running, -⟩ := h.turn_facts turning
  refine h.goOn notes.subject notes.lawful (by simp [World.atHand, turning]) rfl rfl ?_ ?_
  · rintro _ ⟨⟩
    exact fits
  · intro run mem
    refine (h.phases run mem).keep (notes.silent _ fun same => ?_)
    obtain ⟨i, found⟩ := List.mem_iff_getElem?.mp mem
    have placed := (h.run_facts found).2.1
    rw [same, running] at placed
    cases placed

theorem goOn_run {canvas : Canvas} {i : Nat} {run : InPlace} {phase : PaintPhase} (h : Ledger w)
    (running : w.runs[i]? = some run) (notes : Notes marks w.log run.id)
    (fits : phase.Fits (marks ++ w.log) run.id) :
    Ledger { w with canvas, runs := w.runs.set i { run with phase }, log := marks ++ w.log } := by
  obtain ⟨-, placed, -⟩ := h.run_facts running
  obtain ⟨rfl, runs⟩ := h.runs_eq running
  refine h.goOn notes.subject notes.lawful rfl (by simp [runs]) (by simp [runs]) ?_ ?_
  · intro turn turning
    obtain ⟨-, inTurn, fits⟩ := h.turn_facts turning
    refine fits.keep (notes.silent _ fun same => ?_)
    rw [same, placed] at inTurn
    cases inTurn
  · simpa [runs] using fits

/-- When nothing is left to do, every event that was let in is over. -/
theorem life_of_drained (h : Ledger w) (drained : w.Drained) (idle : w.runs = [])
    (admitted : Admitted w.log event) :
    life event.id w.log = .done ∨ life event.id w.log = .removed := by
  cases now : life event.id w.log with
  | unborn => exact absurd now (h.lawful.born admitted)
  | waiting =>
    have queued := (h.queued event).mpr ⟨admitted, now⟩
    simp [drained.events] at queued
  | running way =>
    cases way with
    | inTurn => simpa [World.atHand, drained.turn] using (h.inTurn _).mp now
    | inPlace => simpa [idle] using (h.inPlace _).mp now
  | done => exact .inl rfl
  | removed => exact .inr rfl

/-- Every change keeps the ledger in order. -/
theorem change (h : Ledger w) (change : w.Change w') : Ledger w' := by
  cases change with
  | adjust | publish =>
    have notes : Notes [] w.log 0 := .nil h.lawful
    exact h.noteAll notes.subject notes.lawful (by simp [Silent, Looked])
  | enqueue _ fresh => exact h.enqueue _ _ fresh
  | fault =>
    have notes : Notes [.faulted none] w.log 0 :=
      .one trivial h.lawful rfl (by simp [Silent, Looked])
    exact h.noteAll notes.subject notes.lawful (by simp [Silent, Looked])
  | @compose canvas =>
    have notes : Notes [.composed canvas.frame.screen.size] w.log 0 :=
      .one trivial h.lawful rfl (by simp [Silent, Looked])
    exact h.noteAll notes.subject notes.lawful (by simp [Silent, Looked])
  | take free paint events => exact h.take free paint events
  | drop => exact h.drop
  | next isOpen idle events => exact h.next idle events
  | advance turning agrees advance =>
    obtain ⟨admitted, running, fits⟩ := h.turn_facts turning
    obtain ⟨notes, fits⟩ := advance.notes h.lawful running admitted fits
    exact h.goOn_turn turning notes fits
  | resize turning kind =>
    obtain ⟨-, -, fits⟩ := h.turn_facts turning
    have tag : EventTag.displayResized = _ := (congrArg EventKind.tag kind).symm
    exact h.goOn_turn turning (.nil h.lawful) ⟨tag.symm, fits.2⟩
  | follow turning updated =>
    obtain ⟨admitted, running, fits⟩ := h.turn_facts turning
    have resized : Fits w.log (.resized _) := ⟨running, ⟨_, admitted, rfl, fits.1⟩, fits.2⟩
    exact h.goOn_turn turning
      (.one resized h.lawful rfl (by simp +contextual [Silent, Looked]))
      ⟨fits.1, List.mem_cons_self⟩
  | give turning =>
    obtain ⟨-, -, fits⟩ := h.turn_facts turning
    have notes (id : Nat) : Notes [.faulted (some id)] w.log id :=
      .one trivial h.lawful rfl (by simp [Silent, Looked])
    exact h.goOn_turn turning (notes _)
      ⟨by simp [fits.1], fun _ => .inr List.mem_cons_self⟩
  | finish turning last => exact h.finish turning last
  | cycle running agrees cycle =>
    obtain ⟨paint, placed, fits⟩ := h.run_facts running
    obtain ⟨notes, fits⟩ := cycle.notes h.lawful placed paint fits
    exact h.goOn_run running notes fits
  | finishInline running last => exact h.finishInline running last

end Ledger

theorem World.Reaches.ledger {canvas : Canvas} (reach : Reaches canvas w) : Ledger w :=
  reach.invariant (.start canvas) Ledger.change

end Handset
