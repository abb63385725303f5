import Handset.Proofs.Mirror

/-! Paint cycles of a session, as moves of a world: in turn, or in place on the thread that asks for
the repaint. -/

namespace Handset

namespace World

theorem compose_keeps (w : World Job) (now : Nat) :
    (w.compose now).turn = w.turn ∧ (w.compose now).runs = w.runs ∧
      (w.compose now).calls = w.calls := by
  unfold compose
  split <;> exact ⟨rfl, rfl, rfl⟩

theorem present_keeps (w : World Job) (frame : Frame) (now : Nat) :
    (w.present frame now).turn = w.turn ∧ (w.present frame now).runs = w.runs ∧
      (w.present frame now).calls = w.calls := by
  unfold present
  simp only
  split
  · exact ⟨rfl, rfl, rfl⟩
  · exact compose_keeps _ now

end World

/-- Who goes through a paint cycle: the thread that handles an event, or another one in place. -/
inductive Painter
  | inTurn (event : Event Job)
  | inPlace (id thread : Nat)

namespace Painter

variable {painter : Painter} {phase phase' : PaintPhase} {v w w' : World Job}

def id : Painter → Nat
  | .inTurn event => event.id
  | .inPlace id _ => id

/-- The world with the painter in some phase. -/
def put (phase : PaintPhase) (w : World Job) : Painter → World Job
  | .inTurn event => { w with turn := some ⟨event, .paint phase⟩ }
  | .inPlace id thread => { w with runs := w.runs ++ [⟨id, thread, phase⟩] }

def move (w : World Job) (ok : Bool) (now : Nat) : Painter → Move Job
  | .inTurn _ => .handle ok now
  | .inPlace .. => .run w.runs.length ok now

@[simp] theorem canvas_put (painter : Painter) (w : World Job) :
    (painter.put phase w).canvas = w.canvas := by
  cases painter <;> rfl

@[simp] theorem queue_put (painter : Painter) (w : World Job) :
    (painter.put phase w).queue = w.queue := by
  cases painter <;> rfl

theorem locked_put_inside : (painter.put .inside w).locked = true := by
  cases painter with
  | inTurn event => rfl
  | inPlace id thread => simp [put, World.locked]

theorem beq_inside (outside : phase ≠ .inside) : (phase == .inside) = false :=
  beq_eq_false_iff_ne.mpr outside

/-- A painter that is not inside holds nothing. -/
theorem locked_put (outside : phase ≠ .inside) (turn : w'.turn = w.turn)
    (runs : w'.runs = w.runs) :
    (painter.put phase w').locked = (painter.put .look w).locked := by
  cases painter with
  | inTurn event =>
    simp only [put, World.locked, Option.any_some, runs]
    congr 1
    cases phase with
    | inside => exact absurd rfl outside
    | look | wait | ended => rfl
  | inPlace id thread =>
    simp [put, World.locked, turn, runs, beq_inside outside,
      beq_inside (show PaintPhase.look ≠ .inside by simp)]

theorem locked_inPlace {id thread : Nat} (outside : phase ≠ .inside) :
    ((Painter.inPlace id thread).put phase w).locked = w.locked := by
  simp [put, World.locked, beq_inside outside]

theorem step_ended (id thread : Nat) (w : World Job) :
    ((Painter.inPlace id thread).put .ended w).step (.run w.runs.length true 0) = some { w with
      queue := w.queue.finishInline .paint thread, log := .finished id :: w.log } := by
  simp [World.step, put, World.goOn, List.eraseIdx_append_of_length_le]

theorem leads_put (ok : Bool) (now : Nat) (runs : w'.runs = w.runs)
    (cycle : (painter.put phase w).cycle painter.id ok now phase =
      some (phase', painter.put phase w')) :
    (painter.put phase w).Leads (painter.put phase' w') := by
  apply World.Leads.one (painter.move w ok now)
  cases painter with
  | inTurn event =>
    cases phase with
    | ended => cases cycle
    | look | wait | inside =>
      simp only [World.step, move, put, Option.bind_some, World.handle] at cycle ⊢
      rw [show (Painter.inTurn event).id = event.id from rfl] at cycle
      simp [cycle, World.toPhase]
  | inPlace id thread =>
    have found : (w.runs ++ [⟨id, thread, phase⟩])[w.runs.length]? = some ⟨id, thread, phase⟩ := by
      simp
    cases phase with
    | ended => cases cycle
    | look | wait | inside =>
      simp only [World.step, move, put, found, Option.bind_some, World.goOn] at cycle ⊢
      rw [show (Painter.inPlace id thread).id = id from rfl] at cycle
      simp [cycle, runs]

/-- What others do meanwhile leaves the painter in its phase. -/
theorem eq_put (goes : (painter.put phase w).Goes v) :
    ∃ w', v = painter.put phase w' ∧ w'.turn = w.turn ∧ w'.runs = w.runs ∧ w'.calls = w.calls := by
  have turn := goes.turn
  have runs := goes.runs
  have calls := goes.calls
  exists { v with turn := w.turn, runs := w.runs }
  cases painter with
  | inTurn event =>
    refine ⟨?_, rfl, rfl, calls⟩
    have turn : v.turn = some ⟨event, .paint phase⟩ := turn
    have runs : v.runs = w.runs := runs
    simp only [put, ← turn, ← runs]
  | inPlace id thread =>
    refine ⟨?_, rfl, rfl, calls⟩
    have turn : v.turn = w.turn := turn
    have runs : v.runs = w.runs ++ [⟨id, thread, phase⟩] := runs
    simp only [put, ← turn, ← runs]

theorem compose_put (painter : Painter) (w : World Job) (now : Nat) :
    (painter.put phase w).compose now = painter.put phase (w.compose now) := by
  cases painter with
  | inTurn event | inPlace id thread =>
    simp only [put, World.compose]
    split <;> rfl

theorem present_put (painter : Painter) (w : World Job) (frame : Frame) (now : Nat) :
    (painter.put phase w).present frame now = painter.put phase (w.present frame now) := by
  have shown : { painter.put phase w with
      canvas := { (painter.put phase w).canvas with frame } } =
        painter.put phase { w with canvas := { w.canvas with frame } } := by
    cases painter <;> rfl
  unfold World.present
  rw [shown]
  simp only [canvas_put]
  split
  · rfl
  · exact compose_put painter _ now

theorem leads_hidden (hidden : w.canvas.shown = false) :
    (painter.put .look w).Leads (painter.put .ended (w.note (.skipped painter.id))) := by
  refine leads_put true 0 (by rfl) ?_
  simp only [World.cycle, canvas_put, hidden]
  cases painter <;> rfl

theorem leads_inside (shown : w.canvas.shown = true) (free : (painter.put .look w).locked = false) :
    (painter.put .look w).Leads (painter.put .inside (w.note (.painted painter.id))) := by
  have waits : (painter.put .look w).Leads (painter.put .wait w) := by
    apply leads_put true 0 rfl
    simp only [World.cycle, canvas_put, shown]
    rfl
  apply waits.trans
  refine leads_put true 0 (by rfl) ?_
  have free : (painter.put .wait w).locked = false := by
    rw [locked_put (by simp) rfl rfl, free]
  simp only [World.cycle, free]
  cases painter <;> rfl

theorem leads_shown (now : Nat) :
    (painter.put .inside w).Leads
      (painter.put .ended (w.present w.canvas.frame.finish now)) := by
  apply leads_put true now (w.present_keeps _ now).2.1
  simp only [World.cycle, canvas_put, if_true, present_put]

theorem leads_failed : (painter.put .inside w).Leads (painter.put .ended w) := by
  apply leads_put false 0 rfl
  rfl

end Painter

namespace Stage

variable {s : Session Stage} {w : World Job} {runner : Runner Stage}

theorem mirrored_draw (pen : Pen) (drawing : Drawing) : Mirrored (draw pen drawing) := by
  apply mirrored_theCanvas
  intro s w h
  let drawn (canvas : Canvas) : Canvas := { canvas with frame := { canvas.frame with
    offscreen := ((Graphics.mk pen canvas.frame.offscreen).draw drawing).2.target } }
  have first : Tracks (setCanvas (drawn s.stage.canvas)) s w :=
    ⟨_, w.goes_adjust ⟨drawn, fun _ => ⟨rfl, rfl, rfl⟩⟩, h.adjust drawn⟩
  apply first.bind
  intro _
  dsimp only
  split
  · apply Mirrored.bind (mirrored_note _)
    intro _
    exact mirrored_pure _
  · exact mirrored_pure _
  · apply Mirrored.bind (mirrored_throw _)
    intro _
    exact mirrored_pure _

theorem mirrored_drawBackBuffer (pen : Pen) : Mirrored (drawBackBuffer pen) := by
  apply mirrored_get
  intro s w h
  exact mirrored_draw pen _ s w h

theorem mirrored_paintItems (calm : Calm runner) {pen : Pen} {items : List PaintItem}
    (plain : PaintItem.allPlain items = true) : Mirrored (paintItems runner pen items) := by
  induction items generalizing pen with
  | nil => exact mirrored_pure none
  | cons item items ih =>
    have parts : item.plain = true ∧ PaintItem.allPlain items = true := by
      simpa [PaintItem.allPlain] using plain
    cases item with
    | drawing drawing =>
      apply Mirrored.bind (mirrored_draw pen drawing)
      intro pen
      exact ih parts.2
    | backBuffer =>
      apply Mirrored.bind (mirrored_drawBackBuffer pen)
      intro pen
      exact ih parts.2
    | body body =>
      apply Mirrored.bind (mirrored_runBody calm parts.1)
      intro failure
      cases failure with
      | none => exact ih parts.2
      | some failure => exact mirrored_pure (some failure)

theorem mirrored_holdPending : Mirrored (Act.holdPending runner) := by
  apply mirrored_get
  intro s w h
  simp only [h.plain.dispatch]
  exact mirrored_pure () s w h

theorem mirrored_paintApp (calm : Calm runner) : Mirrored (paintApp runner) := by
  apply mirrored_theCanvas
  intro s w h
  apply mirrored_get ?_ s w h
  intro s w h
  by_cases bare : s.stage.app = .backBuffer
  · simp only [bare, if_true]
    apply Mirrored.bind (mirrored_drawBackBuffer _) ?_ s w h
    intro _
    exact mirrored_pure none
  · simp only [bare, if_false]
    apply Mirrored.bind mirrored_holdPending ?_ s w h
    intro _
    apply Mirrored.bind (mirrored_note _)
    intro _
    apply mirrored_get
    intro s w h
    apply Mirrored.bind (mirrored_paintItems calm h.plain.script) ?_ s w h
    intro failure
    cases failure with
    | none => exact mirrored_runRule calm _ none
    | some failure => exact mirrored_pure (some failure)

theorem mirrors_compose (h : Mirrors s w) :
    Mirrors (composeFrame.run.run s).2 (w.compose s.clock) := by
  unfold World.compose
  simp only [composeFrame, run_bind, run_get, run_liftM, run_setCanvas, h.canvas]
  cases s.stage.canvas.compose s.clock with
  | error fault => exact h
  | ok pair =>
    have plain (canvas : Canvas) (logs : Array LogEntry) :
        Session.Plain { s with stage := { s.stage with canvas }, logs } :=
      h.plain
    cases pair with
    | mk refusal canvas =>
      cases refusal with
      | none => exact ⟨rfl, h.queue, h.painting, plain canvas s.logs⟩
      | some error => exact ⟨rfl, h.queue, h.painting, plain canvas _⟩

theorem mirrors_composeUnlessParallel (h : Mirrors s w) :
    Mirrors (composeUnlessParallel.run.run s).2
      (if w.canvas.settings.parallelRedraw then w else w.compose s.clock) := by
  change Mirrors ((if !s.stage.canvas.settings.parallelRedraw then composeFrame
    else pure ()).run.run s).2 _
  rw [h.canvas]
  cases s.stage.canvas.settings.parallelRedraw with
  | true => exact h
  | false => exact mirrors_compose h

/-- A new image is shown in the session as it is in its world. -/
theorem mirrors_present (h : Mirrors s w) (f : Frame → Frame) :
    Mirrors ((do
        modifyCanvas fun canvas => { canvas with frame := f canvas.frame }
        composeUnlessParallel : Act Unit).run.run s).2
      (w.present (f w.canvas.frame) s.clock) := by
  have shown := h.adjust fun canvas => { canvas with frame := f canvas.frame }
  exact mirrors_composeUnlessParallel shown

/-- How a paint cycle ends, by what the application's paint came to. -/
def endPaint : Except Fault (Option Failure) → Act Unit
  | .ok none => do
    modifyCanvas fun canvas => { canvas with frame := canvas.frame.finish }
    composeUnlessParallel
  | .ok (some failure) => Act.log (.paintFailed failure)
  | .error fault => Act.log (.paintFaulted fault)

theorem run_paintCycle (shown : s.stage.canvas.shown = true) (free : s.painting = false)
    {result : Except Fault (Option Failure)} {s' : Session Stage}
    (paint : (paintApp runner).run.run { s with painting := true } = (result, s')) :
    (paintCycle runner).run.run s = (endPaint result).run.run { s' with painting := false } := by
  simp only [paintCycle, run_bind, run_get, shown, free, Bool.not_true, Bool.or_false,
    Bool.false_eq_true, if_false, run_set, run_attempt, run_modify, paint]
  cases result with
  | error fault => rfl
  | ok failure => cases failure <;> rfl

theorem mirrors_put {painter : Painter} {phase : PaintPhase} (canvas : w.canvas = s.stage.canvas)
    (queue : w.queue = s.queue) (painting : (painter.put phase w).locked = s.painting)
    (plain : s.Plain) : Mirrors s (painter.put phase w) where
  canvas := by rw [Painter.canvas_put, canvas]
  queue := by rw [Painter.queue_put, queue]
  painting := painting
  plain := plain

theorem leads_endPaint {painter : Painter} (h : Mirrors s (painter.put .inside w))
    (result : Except Fault (Option Failure)) (free : (painter.put .look w).locked = false) :
    ∃ w', (painter.put .inside w).Leads (painter.put .ended w') ∧
      Mirrors ((endPaint result).run.run { s with painting := false }).2 (painter.put .ended w') ∧
      w'.turn = w.turn ∧ w'.runs = w.runs ∧ w'.calls = w.calls := by
  have canvas : w.canvas = s.stage.canvas := by rw [← h.canvas, Painter.canvas_put]
  have queue : w.queue = s.queue := by rw [← h.queue, Painter.queue_put]
  have outside : Mirrors { s with painting := false } (painter.put .ended w) := by
    apply mirrors_put
    · exact canvas
    · exact queue
    · exact (Painter.locked_put (by simp) rfl rfl).trans free
    · exact h.plain
  have failed (entry : LogEntry) : ∃ w', (painter.put .inside w).Leads (painter.put .ended w') ∧
      Mirrors ((Act.log entry : Act Unit).run.run { s with painting := false }).2
        (painter.put .ended w') ∧
      w'.turn = w.turn ∧ w'.runs = w.runs ∧ w'.calls = w.calls := by
    exact ⟨w, Painter.leads_failed, outside.record s.notes _, rfl, rfl, rfl⟩
  cases result with
  | error fault => exact failed _
  | ok failure =>
    cases failure with
    | some failure => exact failed _
    | none =>
      refine ⟨_, Painter.leads_shown s.clock, ?_, w.present_keeps _ s.clock⟩
      have shown := mirrors_present outside Frame.finish
      rw [Painter.present_put, Painter.canvas_put] at shown
      exact shown

/-- A paint cycle of a thread that is in none is a run of moves from its first phase to its last. -/
theorem leads_paintCycle (calm : Calm runner) {painter : Painter}
    (h : Mirrors s (painter.put .look w)) (free : s.painting = false) :
    ∃ w', (painter.put .look w).Leads (painter.put .ended w') ∧
      Mirrors ((paintCycle runner).run.run s).2 (painter.put .ended w') ∧
      w'.turn = w.turn ∧ w'.runs = w.runs ∧ w'.calls = w.calls := by
  have idle : (painter.put .look w).locked = false := h.painting.trans free
  have canvas : w.canvas = s.stage.canvas := by rw [← h.canvas, Painter.canvas_put]
  have queue : w.queue = s.queue := by rw [← h.queue, Painter.queue_put]
  cases shown : s.stage.canvas.shown with
  | false =>
    have ran : (paintCycle runner).run.run s = (.ok (), s) := by
      simp only [paintCycle, run_bind, run_get, shown]
      rfl
    refine ⟨_, Painter.leads_hidden (by rw [canvas, shown]), ?_, rfl, rfl, rfl⟩
    rw [ran]
    apply mirrors_put
    · exact canvas
    · exact queue
    · have same : (painter.put .ended (w.note (.skipped painter.id))).locked =
          (painter.put .look w).locked := Painter.locked_put (by simp) rfl rfl
      exact same.trans h.painting
    · exact h.plain
  | true =>
    have inside : Mirrors { s with painting := true }
        (painter.put .inside (w.note (.painted painter.id))) := by
      apply mirrors_put
      · exact canvas
      · exact queue
      · exact Painter.locked_put_inside
      · exact h.plain
    have begins := Painter.leads_inside (by rw [canvas, shown]) idle
    -- The application's paint is any run of moves that leaves the painter inside.
    obtain ⟨v, goes, painted⟩ := mirrored_paintApp calm _ _ inside
    obtain ⟨v, rfl, turn, runs, calls⟩ := Painter.eq_put goes
    cases paint : (paintApp runner).run.run { s with painting := true } with
    | mk result s' =>
      rw [paint] at painted
      have same : (painter.put .look v).locked = (painter.put .look w).locked :=
        Painter.locked_put (by simp) turn runs
      have free' : (painter.put .look v).locked = false := same.trans idle
      obtain ⟨w', ends, mirrors, turn', runs', calls'⟩ := leads_endPaint painted result free'
      refine ⟨w', begins.trans (goes.leads.trans ends), ?_, turn'.trans turn, runs'.trans runs,
        calls'.trans calls⟩
      rw [run_paintCycle shown free paint]
      exact mirrors

theorem mirrored_compose : Mirrored compose := by
  apply mirrored_get
  intro s w h
  cases painting : s.painting with
  | true => exact mirrored_pure () s w h
  | false =>
    have free : w.locked = false := h.painting.trans painting
    have made : w.step (.compose s.clock) = some (w.compose s.clock) := by
      simp [World.step, free]
    have keeps := w.compose_keeps s.clock
    exact ⟨_, ⟨.one _ made, keeps.1, keeps.2.1, keeps.2.2⟩, mirrors_compose h⟩

theorem mirrored_flushBuffer (image : Image) : Mirrored (flushBuffer image) := by
  apply mirrored_get
  intro s w h
  cases painting : s.painting with
  | true => exact mirrored_log _ s w h
  | false =>
    obtain ⟨v, goes, waited⟩ := mirrored_throttle s w h
    have free : v.locked = false := by rw [goes.locked, h.painting, painting]
    have made : v.step (.submit image (throttle.run.run s).2.clock) =
        some (v.present (v.canvas.frame.submit image) (throttle.run.run s).2.clock) := by
      simp [World.step, free]
    have keeps := v.present_keeps (v.canvas.frame.submit image) (throttle.run.run s).2.clock
    have shows : v.Goes _ := ⟨.one _ made, keeps.1, keeps.2.1, keeps.2.2⟩
    exact ⟨_, goes.trans shows, mirrors_present waited (·.submit image)⟩

/-- Only a thread in no paint takes a queued repaint out of its turn. -/
theorem Queue.flush_take {q q' : Queue Job} {painting : Bool} {thread : Nat}
    (h : q.flush .paint painting thread = (.take, q')) :
    painting = false ∧ ∃ event, q.events.find? (·.tag == .paint) = some event := by
  rcases q.flush_cases .paint painting thread with ⟨-, eq⟩ | ⟨-, -, eq⟩ |
    ⟨free, -, before, event, after, -, -, found, -⟩ | ⟨-, -, -, eq⟩
  · simp [eq] at h
  · simp [eq] at h
  · exact ⟨free, event, found⟩
  · simp [eq] at h

theorem plain_eraseP {q : Queue Job} {before after : List (Event Job)} {event : Event Job}
    (plain : s.Plain) (events : s.queue.events = before ++ event :: after)
    (rest : q.events = before ++ after) : Session.Plain { s with queue := q } := by
  apply plain_fewer plain
  intro other mem
  rw [rest] at mem
  rw [events]
  exact ((List.sublist_cons_self ..).append_left before).subset mem

theorem run_serviceRepaints {queue : Queue Job} {result : Except Fault Unit} {s' : Session Stage}
    (flushed : s.queue.flush .paint s.painting s.thread = (.take, queue))
    (ran : (paintCycle runner).run.run { s with queue } = (result, s')) :
    ((serviceRepaints runner).run.run s).2 =
      { s' with queue := s'.queue.finishInline .paint s.thread } := by
  simp only [serviceRepaints, run_bind, run_get, flushed, run_set, if_true, run_attempt, ran,
    Act.modifyQueue, run_modify]
  cases result <;> rfl

theorem mirrored_serviceRepaints (calm : Calm runner) : Mirrored (serviceRepaints runner) := by
  intro s w h
  cases flushed : s.queue.flush .paint s.painting s.thread with
  | mk outcome queue =>
    by_cases take : outcome = .take
    · subst take
      obtain ⟨free, event, found⟩ := Queue.flush_take flushed
      obtain ⟨-, -, before, after, events, rest⟩ := Queue.flush_eq_take flushed found
      let painter : Painter := .inPlace event.id s.thread
      let w₁ : World Job := { w with queue, log := .began event.id .inPlace :: w.log }
      have begins : w.step (.service s.painting s.thread) = some (painter.put .look w₁) := by
        simp only [World.step, free, Bool.false_and, Bool.false_eq_true, if_false, World.service]
        rw [free] at flushed
        rw [h.queue, flushed, found]
        rfl
      have locked : (painter.put .look w₁).locked = w.locked := Painter.locked_inPlace (by simp)
      have begun : Mirrors { s with queue } (painter.put .look w₁) := by
        apply mirrors_put
        · exact h.canvas
        · rfl
        · exact locked.trans h.painting
        · exact plain_eraseP h.plain events (by rw [rest])
      obtain ⟨w', leads, mirrors, turn, runs, calls⟩ := leads_paintCycle calm begun free
      have ends := Painter.step_ended event.id s.thread w'
      cases ran : (paintCycle runner).run.run { s with queue } with
      | mk result s' =>
        rw [ran] at mirrors
        refine ⟨_, ⟨(World.Leads.one _ begins).trans (leads.trans (.one _ ends)), turn, runs,
          calls⟩, ?_⟩
        rw [run_serviceRepaints flushed ran]
        have queue : w'.queue = s'.queue := by
          rw [← mirrors.queue, Painter.queue_put]
        constructor
        · rw [← mirrors.canvas, Painter.canvas_put]
        · rw [queue]
        · rw [← mirrors.painting]
          exact (Painter.locked_inPlace (by simp)).symm
        · exact mirrors.plain
    · have same : queue = s.queue := Queue.flush_of_ne_take flushed take
      have ran : (serviceRepaints runner).run.run s = (.ok (), s) := by
        simp only [serviceRepaints, run_bind, run_get, flushed, run_set, take, if_false, same]
        rfl
      refine ⟨w, .refl w, ?_⟩
      rw [ran]
      exact h

end Stage

end Handset
