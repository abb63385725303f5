import Handset.Proofs.World
import Handset.Queue.Cases

/-! What a move changes. Each move is one of a few changes, and what holds of every reachable world
is proved change by change. -/

namespace Handset

variable {Work : Type}

/-- The phases of a paint cycle, with the marks it leaves. -/
inductive Cycle (canvas : Canvas) (id : Nat) : PaintPhase → List (Mark Work) → PaintPhase → Prop
  | skip : Cycle canvas id .look [.skipped id] .ended
  | wait : Cycle canvas id .look [] .wait
  | paint : Cycle canvas id .wait [.painted id] .inside
  | leave : Cycle canvas id .inside [] .ended
  | compose : Cycle canvas id .inside [.composed canvas.frame.screen.size] .ended

/-- The phases of an event that leave the sizes alone, with the marks they leave. -/
inductive Advance (canvas : Canvas) (event : Event Work) :
    Phase → List (Mark Work) → Phase → Prop
  | enter : event.tag = .paint → Advance canvas event .start [] (.paint .look)
  | cycle {phase phase' : PaintPhase} {marks : List (Mark Work)} :
      Cycle canvas event.id phase marks phase' →
      Advance canvas event (.paint phase) marks (.paint phase')
  | notice {width height : Int} : event.kind = .sizeChanged width height →
      Advance canvas event .start [.told .sizeChanged ⟨width, height⟩ canvas.layout.size] .leave
  | leave : event.tag ≠ .paint → event.tag ≠ .sizeChanged → event.tag ≠ .displayResized →
      Advance canvas event .start [] .leave
  | report {changed : Bool} : Advance canvas event (.settle changed) [] (.tell canvas.layout.size)
  | settle : Advance canvas event (.settle false) [] .leave
  | tell {size : Size} :
      Advance canvas event (.tell size) [.told .displayResized size canvas.layout.size] .leave

namespace World

/-- The application will be told a size by one of the calls under way. -/
def Noticed (calls : List Call) : Prop :=
  ∃ call ∈ calls, call.isNotice = true

/-- What a move can do. In each case all that is not named stays as it was. -/
inductive Change (w : World Work) : World Work → Prop
  /-- Nothing that others depend on. -/
  | adjust {canvas : Canvas} {calls : List Call} (agrees : w.canvas.Agrees canvas)
      (noticed : Noticed w.calls → Noticed calls ∨ w.queue.closed = true) :
      Change w { w with canvas, calls }
  | enqueue {kind : EventKind Work} {cause : Cause} {calls : List Call}
      (isOpen : w.queue.closed = false)
      (fresh : kind.tag = .paint → ∀ event ∈ w.queue.events, event.tag ≠ .paint)
      (noticed : Noticed w.calls → Noticed calls ∨ kind.tag = .sizeChanged) :
      Change w { w with
        queue := w.queue.enqueue kind, calls
        log := .admitted ⟨w.queue.lastId + 1, kind⟩ cause :: w.log }
  /-- Full screen mode takes effect at once. -/
  | publish {changed : Bool} {canvas : Canvas} {calls : List Call}
      (updated : w.canvas.updateSize = .ok (changed, canvas)) (noticed : Noticed calls) :
      Change w { w with canvas, calls }
  | fault {calls : List Call} : Change w { w with calls, log := .faulted none :: w.log }
  | compose {canvas : Canvas} (agrees : w.canvas.Agrees canvas) :
      Change w { w with canvas, log := .composed canvas.frame.screen.size :: w.log }
  /-- A repaint leaves the queue out of turn, while none is in progress. -/
  | take {event : Event Work} {before after : List (Event Work)} {thread : Nat}
      (free : w.queue.inProgress .paint = false) (paint : event.tag = .paint)
      (events : w.queue.events = before ++ event :: after) :
      Change w { w with
        queue := { w.queue.leave .paint with
          events := before ++ after, inlineRuns := w.queue.inlineRuns ++ [(.paint, thread)] }
        runs := w.runs ++ [⟨event.id, thread, .look⟩]
        log := .began event.id .inPlace :: w.log }
  /-- Some events, or all of them, will not be handled. -/
  | drop {p : Event Work → Bool} {queued : Tally} {closed : Bool}
      (shut : w.queue.closed = true → closed = true) :
      Change w { w with
        queue := { w.queue with
          events := w.queue.events.filter fun event => !p event, queued, closed }
        log := removals (w.queue.events.filter p) ++ w.log }
  | next {event : Event Work} {rest : List (Event Work)} (isOpen : w.queue.closed = false)
      (idle : w.turn = none) (events : w.queue.events = event :: rest) :
      Change w { w with
        queue := { w.queue.leave event.tag with
          events := rest, current := some (event.tag, event.id) }
        turn := some ⟨event, .start⟩
        log := .began event.id .inTurn :: w.log }
  | advance {turn : Turn Work} {canvas : Canvas} {marks : List (Mark Work)} {phase : Phase}
      (turning : w.turn = some turn) (agrees : w.canvas.Agrees canvas)
      (advance : Advance canvas turn.event turn.phase marks phase) :
      Change w { w with canvas, turn := some { turn with phase }, log := marks ++ w.log }
  /-- The canvas learns the size of the display, and has yet to follow it. -/
  | resize {event : Event Work} {width height : Int} (turning : w.turn = some ⟨event, .start⟩)
      (kind : event.kind = .displayResized width height) :
      Change w { w with
        canvas := w.canvas.setDisplaySize width height, turn := some ⟨event, .recompute⟩ }
  | follow {event : Event Work} {changed : Bool} {canvas : Canvas}
      (turning : w.turn = some ⟨event, .recompute⟩)
      (updated : w.canvas.updateSize = .ok (changed, canvas)) :
      Change w { w with
        canvas, turn := some ⟨event, .settle changed⟩, log := .resized event.id :: w.log }
  | give {event : Event Work} (turning : w.turn = some ⟨event, .recompute⟩) :
      Change w { w with
        turn := some ⟨event, .leave⟩, log := .faulted (some event.id) :: w.log }
  | finish {turn : Turn Work} (turning : w.turn = some turn)
      (last : turn.phase = .paint .ended ∨ turn.phase = .leave) :
      Change w (w.finish turn.event)
  | cycle {i : Nat} {run : InPlace} {canvas : Canvas} {marks : List (Mark Work)}
      {phase : PaintPhase} (running : w.runs[i]? = some run) (agrees : w.canvas.Agrees canvas)
      (cycle : Cycle canvas run.id run.phase marks phase) :
      Change w { w with canvas, runs := w.runs.set i { run with phase }, log := marks ++ w.log }
  | finishInline {i : Nat} {run : InPlace} (running : w.runs[i]? = some run)
      (last : run.phase = .ended) :
      Change w { w with
        queue := w.queue.finishInline .paint run.thread
        runs := w.runs.eraseIdx i
        log := .finished run.id :: w.log }

variable {w w' : World Work}

theorem noticed_toDo {calls : List Call} {call : Call} (h : Noticed calls) :
    Noticed (calls ++ [call]) := by
  obtain ⟨notice, mem, isNotice⟩ := h
  exact ⟨notice, List.mem_append_left _ mem, isNotice⟩

theorem noticed_of_isNotice {calls : List Call} {call : Call} (h : call.isNotice = true) :
    Noticed (calls ++ [call]) :=
  ⟨call, by simp, h⟩

theorem noticed_eraseIdx {calls : List Call} {i : Nat} {call : Call}
    (found : calls[i]? = some call) (h : Noticed calls) :
    call.isNotice = true ∨ Noticed (calls.eraseIdx i) := by
  obtain ⟨notice, mem, isNotice⟩ := h
  obtain ⟨j, at_j⟩ := List.mem_iff_getElem?.mp mem
  by_cases same : i = j
  · subst same
    rw [found] at at_j
    cases at_j
    exact .inl isNotice
  · exact .inr ⟨notice, List.mem_eraseIdx_iff_getElem?.mpr ⟨j, Ne.symm same, at_j⟩, isNotice⟩

@[simp] theorem canvas_post (w : World Work) (cause : Cause) (kind : EventKind Work) :
    (w.post cause kind).canvas = w.canvas := by
  unfold post
  split <;> simp [*]

@[simp] theorem queue_post (w : World Work) (cause : Cause) (kind : EventKind Work) :
    (w.post cause kind).queue = (w.queue.post kind).2 := by
  unfold post
  split <;> simp [*]

@[simp] theorem turn_post (w : World Work) (cause : Cause) (kind : EventKind Work) :
    (w.post cause kind).turn = w.turn := by
  unfold post
  split <;> simp [*]

@[simp] theorem runs_post (w : World Work) (cause : Cause) (kind : EventKind Work) :
    (w.post cause kind).runs = w.runs := by
  unfold post
  split <;> simp [*]

@[simp] theorem calls_post (w : World Work) (cause : Cause) (kind : EventKind Work) :
    (w.post cause kind).calls = w.calls := by
  unfold post
  split <;> simp [*]

@[simp] theorem locked_post (w : World Work) (cause : Cause) (kind : EventKind Work) :
    (w.post cause kind).locked = w.locked := by
  simp [locked]

theorem post_calls (w : World Work) (cause : Cause) (kind : EventKind Work) (calls : List Call) :
    { w with calls }.post cause kind = { w.post cause kind with calls } := by
  unfold post
  simp only
  split <;> rfl

theorem change_post (cause : Cause) (kind : EventKind Work) {calls : List Call}
    (noticed : Noticed w.calls → Noticed calls ∨ kind.tag = .sizeChanged) :
    Change w { w.post cause kind with calls } := by
  unfold post
  rcases w.queue.post_cases kind with ⟨closed, h⟩ | ⟨-, paint, -, h⟩ | ⟨isOpen, fresh, h⟩
  · rw [h]
    exact .adjust (.refl _) fun _ => .inr closed
  · rw [h]
    refine .adjust (.refl _) fun due => (noticed due).imp id fun tag => ?_
    rw [paint] at tag
    cases tag
  · rw [h]
    exact .enqueue isOpen fresh noticed

theorem compose_eq (w : World Work) (now : Nat) :
    ∃ canvas marks, w.canvas.Agrees canvas ∧
      w.compose now = { w with canvas, log := marks ++ w.log } ∧
      (marks = [] ∨ marks = [.composed canvas.frame.screen.size]) := by
  unfold compose
  split
  · rename_i refusal canvas composed
    exact ⟨canvas, [_], Canvas.agrees_compose composed, rfl, .inr rfl⟩
  · exact ⟨w.canvas, [], .refl _, rfl, .inl rfl⟩

theorem present_eq (w : World Work) {frame : Frame} (now : Nat)
    (screen : frame.screen.size = w.canvas.frame.screen.size) :
    ∃ canvas marks, w.canvas.Agrees canvas ∧
      w.present frame now = { w with canvas, log := marks ++ w.log } ∧
      (marks = [] ∨ marks = [.composed canvas.frame.screen.size]) := by
  have agrees : w.canvas.Agrees { w.canvas with frame } := ⟨rfl, rfl, screen⟩
  unfold present
  simp only
  split
  · exact ⟨_, [], agrees, rfl, .inl rfl⟩
  · obtain ⟨canvas, marks, agrees', h, shown⟩ :=
      compose_eq { w with canvas := { w.canvas with frame } } now
    exact ⟨canvas, marks, agrees.trans agrees', h, shown⟩

theorem cycle_eq_some {id : Nat} {ok : Bool} {now : Nat} {phase phase' : PaintPhase}
    (h : w.cycle id ok now phase = some (phase', w')) :
    ∃ canvas marks, w.canvas.Agrees canvas ∧ Cycle canvas id phase marks phase' ∧
      w' = { w with canvas, log := marks ++ w.log } := by
  cases phase with
  | look =>
    simp only [cycle, Option.some.injEq] at h
    split at h <;> cases h
    · exact ⟨w.canvas, [], .refl _, .wait, rfl⟩
    · exact ⟨w.canvas, [_], .refl _, .skip, rfl⟩
  | wait =>
    simp only [cycle] at h
    split at h <;> cases h
    exact ⟨w.canvas, [_], .refl _, .paint, rfl⟩
  | inside =>
    simp only [cycle, Option.some.injEq] at h
    split at h <;> cases h
    · obtain ⟨canvas, marks, agrees, eq, rfl | rfl⟩ :=
        present_eq w now (show w.canvas.frame.finish.screen.size = _ from rfl)
      · exact ⟨canvas, _, agrees, .leave, eq⟩
      · exact ⟨canvas, _, agrees, .compose, eq⟩
    · exact ⟨w.canvas, [], .refl _, .leave, rfl⟩
  | ended => cases h

theorem change_compose (w : World Work) (now : Nat) : Change w (w.compose now) := by
  obtain ⟨canvas, marks, agrees, eq, rfl | rfl⟩ := w.compose_eq now
  · exact eq ▸ .adjust agrees .inl
  · exact eq ▸ .compose agrees

theorem change_present (w : World Work) {frame : Frame} (now : Nat)
    (screen : frame.screen.size = w.canvas.frame.screen.size) :
    Change w (w.present frame now) := by
  obtain ⟨canvas, marks, agrees, eq, rfl | rfl⟩ := w.present_eq now screen
  · exact eq ▸ .adjust agrees .inl
  · exact eq ▸ .compose agrees

theorem change_perform {i : Nat} {call : Call} (found : w.calls[i]? = some call)
    (h : { w with calls := w.calls.eraseIdx i }.perform call = some w') : Change w w' := by
  have others : call.isNotice = false → Noticed w.calls → Noticed (w.calls.eraseIdx i) :=
    fun quiet due => (noticed_eraseIdx found due).resolve_left (by simp [quiet])
  cases call with
  | repaint =>
    cases h
    rw [post_calls]
    exact change_post _ _ fun due => .inl (others rfl due)
  | recompute =>
    simp only [perform] at h
    split at h
    · cases h
    · simp only [recompute] at h
      cases updated : w.canvas.updateSize with
      | ok result =>
        obtain ⟨changed, canvas⟩ := result
        simp only [updated, Option.some.injEq] at h
        exact h ▸ .publish updated (noticed_of_isNotice rfl)
      | error fault =>
        simp only [updated, Option.some.injEq] at h
        exact h ▸ .fault
  | announce =>
    cases h
    exact .adjust (.refl _) fun _ => .inl (noticed_of_isNotice rfl)
  | notify size =>
    cases h
    rw [post_calls]
    exact change_post _ _ fun _ => .inr rfl
  | defer =>
    cases h
    exact .adjust (.refl _) fun due => .inl (noticed_toDo (others rfl due))
  | repost size =>
    cases h
    rw [post_calls]
    exact change_post _ _ fun due => .inl (others rfl due)

theorem change_setFullscreen (w : World Work) (fullscreen painting : Bool) :
    Change w (w.setFullscreen fullscreen painting) := by
  unfold setFullscreen
  split
  · exact .adjust (.refl _) .inl
  · exact .adjust ⟨rfl, rfl, rfl⟩ fun due => .inl (noticed_toDo due)

theorem change_service (w : World Work) (painting : Bool) (thread : Nat) :
    Change w (w.service painting thread) := by
  unfold service
  split
  · rename_i queue event taken found
    obtain ⟨free, paint, before, after, events, rfl⟩ := Queue.flush_eq_take taken found
    exact .take free paint events
  · exact .adjust (.refl _) .inl

theorem change_remove (w : World Work) (p : Event Work → Bool) :
    Change w (w.drop (w.queue.events.filter p) (w.queue.remove p).2) := by
  obtain ⟨queued, eq⟩ := w.queue.remove_snd p
  rw [eq]
  exact .drop id

theorem change_close (w : World Work) :
    Change w (w.drop (if w.queue.closed then [] else w.queue.events) w.queue.close.2) := by
  unfold Queue.close
  split
  · exact .adjust (.refl _) .inl
  · have all : w.queue.events.filter (fun _ => true) = w.queue.events := by simp
    have none : w.queue.events.filter (fun _ => !true) = [] := by simp
    have := @Change.drop _ w (fun _ => true) {} true fun _ => rfl
    rw [all, none] at this
    exact this

theorem change_start {turn : Turn Work} (turning : w.turn = some turn)
    (start : turn.phase = .start) : Change w (w.start turn) := by
  obtain ⟨event, phase⟩ := turn
  subst start
  have leave (canvas : Canvas) (agrees : w.canvas.Agrees canvas) (paint : event.tag ≠ .paint)
      (sizeChanged : event.tag ≠ .sizeChanged) (resized : event.tag ≠ .displayResized) :
      Change w { w with canvas, turn := some ⟨event, .leave⟩ } :=
    .advance turning agrees (.leave paint sizeChanged resized)
  unfold start
  cases kind : event.kind with
  | paint => exact .advance turning (.refl _) (.enter (by simp [Event.tag, kind, EventKind.tag]))
  | sizeChanged width height => exact .advance turning (.refl _) (.notice kind)
  | displayResized width height => exact .resize turning kind
  | showNotify | hideNotify =>
    exact leave _ ⟨rfl, rfl, rfl⟩ (by simp [Event.tag, kind, EventKind.tag])
      (by simp [Event.tag, kind, EventKind.tag]) (by simp [Event.tag, kind, EventKind.tag])
  | key | pointer | task =>
    exact leave _ (.refl _) (by simp [Event.tag, kind, EventKind.tag])
      (by simp [Event.tag, kind, EventKind.tag]) (by simp [Event.tag, kind, EventKind.tag])

theorem change_handle {turn : Turn Work} {ok : Bool} {now : Nat} (turning : w.turn = some turn)
    (h : w.handle turn ok now = some w') : Change w w' := by
  obtain ⟨event, phase⟩ := turn
  cases phase with
  | start =>
    cases h
    exact change_start turning rfl
  | paint phase =>
    by_cases last : phase = .ended
    · subst last
      cases h
      exact .finish turning (.inl rfl)
    · have h : (w.cycle event.id ok now phase).map (fun pair =>
          pair.2.toPhase ⟨event, .paint pair.1⟩ (.paint pair.1)) = some w' := by
        cases phase with
        | ended => exact absurd rfl last
        | look | wait | inside => exact h
      obtain ⟨⟨phase', v⟩, cycled, rfl⟩ := Option.map_eq_some_iff.mp h
      obtain ⟨canvas, marks, agrees, cycle, rfl⟩ := cycle_eq_some cycled
      have change := Change.advance turning agrees (.cycle cycle)
      exact change
  | recompute =>
    simp only [handle] at h
    split at h
    · cases h
    · simp only [recompute] at h
      cases updated : w.canvas.updateSize with
      | ok result =>
        obtain ⟨changed, canvas⟩ := result
        simp only [updated, Option.some.injEq] at h
        exact h ▸ .follow turning updated
      | error fault =>
        simp only [updated, Option.some.injEq] at h
        exact h ▸ .give turning
  | settle changed =>
    have agrees : w.canvas.Agrees { w.canvas with sizeReported := true } := ⟨rfl, rfl, rfl⟩
    simp only [handle, Option.some.injEq] at h
    split at h
    · exact h ▸ .advance turning agrees .report
    · rename_i quiet
      simp only [Bool.or_eq_true, not_or, Bool.not_eq_true] at quiet
      rw [quiet.1] at turning
      exact h ▸ .advance turning agrees .settle
  | tell size =>
    cases h
    exact .advance turning (.refl _) .tell
  | leave =>
    cases h
    exact .finish turning (.inr rfl)

theorem change_goOn {i : Nat} {run : InPlace} {ok : Bool} {now : Nat}
    (running : w.runs[i]? = some run) (h : w.goOn i run ok now = some w') : Change w w' := by
  by_cases last : run.phase = .ended
  · simp only [goOn, last, Option.some.injEq] at h
    exact h ▸ .finishInline running last
  · have h : (w.cycle run.id ok now run.phase).map (fun pair =>
        { pair.2 with runs := pair.2.runs.set i { run with phase := pair.1 } }) = some w' := by
      unfold goOn at h
      split at h
      · exact absurd ‹_› last
      · exact h
    obtain ⟨⟨phase', v⟩, cycled, rfl⟩ := Option.map_eq_some_iff.mp h
    obtain ⟨canvas, marks, agrees, cycle, rfl⟩ := cycle_eq_some cycled
    exact .cycle running agrees cycle

/-- Every move is one of the changes. -/
theorem step_change {move : Move Work} (h : w.step move = some w') : Change w w' := by
  cases move with
  | post kind =>
    cases h
    have same : w.post .request kind = { w.post .request kind with calls := w.calls } :=
      post_calls w .request kind w.calls
    rw [same]
    exact change_post .request kind .inl
  | surfaceChanged width height =>
    cases h
    rw [toDo, calls_post]
    exact change_post .surface _ fun due => .inl (noticed_toDo due)
  | setFullscreen fullscreen painting =>
    simp only [step] at h
    split at h <;> cases h
    exact change_setFullscreen ..
  | call i =>
    obtain ⟨call, found, h⟩ := Option.bind_eq_some_iff.mp h
    exact change_perform found h
  | adjust adjustment =>
    cases h
    exact .adjust (adjustment.agrees _) .inl
  | compose now =>
    simp only [step] at h
    split at h <;> cases h
    exact change_compose w now
  | submit image now =>
    simp only [step] at h
    split at h <;> cases h
    exact change_present w now rfl
  | service painting thread =>
    simp only [step] at h
    split at h <;> cases h
    exact change_service ..
  | run i ok now =>
    obtain ⟨run, running, h⟩ := Option.bind_eq_some_iff.mp h
    exact change_goOn running h
  | remove p =>
    cases h
    exact change_remove ..
  | close =>
    cases h
    exact change_close w
  | next =>
    simp only [step] at h
    split at h
    · cases h
    · rename_i idle
      obtain ⟨⟨event, queue⟩, first, rfl⟩ := Option.map_eq_some_iff.mp h
      obtain ⟨isOpen, rest, events, rfl⟩ := Queue.next?_eq_some first
      exact .next isOpen (by simpa using idle) events
  | handle ok now =>
    obtain ⟨turn, turning, h⟩ := Option.bind_eq_some_iff.mp h
    exact change_handle turning h

/-- What every change preserves holds of every world that moves reach. -/
theorem Reaches.invariant {P : World Work → Prop} {canvas : Canvas}
    (start : P { canvas }) (change : ∀ {w w'}, P w → Change w w' → P w')
    (reach : Reaches canvas w) : P w := by
  induction reach with
  | start => exact start
  | step _ moved ih => exact change ih (step_change moved)

end World

end Handset
