import Handset.Proofs.DisplaySize

/-! What the application is told of the size of its canvas. A resize tells it the size that the
canvas has by then; a change to full screen mode posts the size of the moment, which others may
change before it is delivered. -/

namespace Handset

variable {Work : Type} {log : List (Mark Work)} {event : Event Work}

/-- What the application was told last: by which kind of event, which size, and the size that the
canvas had at that moment. -/
def lastTold : List (Mark Work) → Option (EventTag × Size × Size)
  | [] => none
  | .told tag size actual :: _ => some (tag, size, actual)
  | _ :: log => lastTold log

theorem lastTold_split {after before : List (Mark Work)} {tag : EventTag} {size actual : Size}
    (last : ∀ tag size actual, .told tag size actual ∉ after) :
    lastTold (after ++ .told tag size actual :: before) = some (tag, size, actual) := by
  induction after with
  | nil => rfl
  | cons mark after ih =>
    have rest := ih fun tag size actual mem => last tag size actual (List.mem_cons_of_mem _ mem)
    cases mark with
    | told => exact absurd List.mem_cons_self (last _ _ _)
    | _ => exact rest

theorem lastTold_removals (events : List (Event Work)) :
    lastTold (removals events ++ log) = lastTold log := by
  induction events with
  | nil => rfl
  | cons event events ih => exact ih

theorem lastTold_cycle {canvas : Canvas} {id : Nat} {phase phase' : PaintPhase}
    {marks : List (Mark Work)} (cycle : Cycle canvas id phase marks phase') :
    lastTold (marks ++ log) = lastTold log := by
  cases cycle <;> rfl

namespace World

variable {w w' : World Work}

/-- Nothing was lost: the queue is open, nothing was removed from it, and there was always a
layout. -/
structure Whole (w : World Work) : Prop where
  isOpen : w.queue.closed = false
  kept : ∀ id, .removed id ∉ w.log
  layouts : ∀ id, .faulted id ∉ w.log

/-- A notice is on its way through a call or the queue. -/
def Posted (w : World Work) : Prop :=
  Noticed w.calls ∨ ∃ event ∈ w.queue.events, event.tag = .sizeChanged

/-- The event at hand is about to tell the application a size. -/
def Telling : Option (Turn Work) → Prop
  | some ⟨event, .start⟩ => event.tag = .sizeChanged
  | some ⟨_, .settle changed⟩ => changed = true
  | some ⟨_, .tell _⟩ => True
  | _ => False

/-- What the application knows of the size of its canvas. -/
structure Informed (w : World Work) : Prop where
  tell : ∀ event size, w.turn = some ⟨event, .tell size⟩ → size = w.canvas.layout.size ∨ w.Posted
  told : ∀ tag size actual, lastTold w.log = some (tag, size, actual) →
    (actual = w.canvas.layout.size ∧ (tag = .displayResized → size = actual)) ∨
      w.Posted ∨ Telling w.turn

theorem change_whole (change : w.Change w') (whole : w'.Whole) : w.Whole where
  isOpen := by
    have isOpen := whole.isOpen
    cases change with
    | drop shut =>
      cases closed : w.queue.closed with
      | false => rfl
      | true => exact (shut closed).symm.trans isOpen
    | _ => exact isOpen
  kept id mem := whole.kept id (change_log change mem)
  layouts id mem := whole.layouts id (change_log change mem)

theorem Posted.mono (h : w.Posted)
    (calls : Noticed w.calls → w'.Posted)
    (events : ∀ event ∈ w.queue.events, event.tag = .sizeChanged → event ∈ w'.queue.events) :
    w'.Posted := by
  rcases h with noticed | ⟨event, queued, tag⟩
  · exact calls noticed
  · exact .inr ⟨event, events event queued tag, tag⟩

theorem Posted.same (h : w.Posted) (calls : w'.calls = w.calls)
    (events : w'.queue.events = w.queue.events) : w'.Posted := by
  rw [Posted, calls, events]
  exact h

theorem Informed.keep (h : w.Informed) (layout : w'.canvas.layout.size = w.canvas.layout.size)
    (log : lastTold w'.log = lastTold w.log) (posted : w.Posted → w'.Posted)
    (telling : Telling w.turn → Telling w'.turn)
    (tell : ∀ event size, w'.turn = some ⟨event, .tell size⟩ → w.turn = some ⟨event, .tell size⟩) :
    w'.Informed where
  tell event size turning := by
    rw [layout]
    exact (h.tell event size (tell event size turning)).imp_right posted
  told tag size actual last := by
    rw [layout]
    exact (h.told tag size actual (log ▸ last)).imp_right (.imp posted telling)

theorem informed_advance {turn : Turn Work} {canvas : Canvas} {marks : List (Mark Work)}
    {phase : Phase} (h : w.Informed) (turning : w.turn = some turn)
    (agrees : w.canvas.Agrees canvas) (advance : Advance canvas turn.event turn.phase marks phase) :
    Informed { w with canvas, turn := some { turn with phase }, log := marks ++ w.log } := by
  obtain ⟨event, before⟩ := turn
  have layout : canvas.layout.size = w.canvas.layout.size := by rw [agrees.layout]
  have posted (h : w.Posted) :
      Posted { w with canvas, turn := some ⟨event, phase⟩, log := marks ++ w.log } :=
    h.mono .inl fun _ mem _ => mem
  cases advance with
  | enter paint =>
    refine h.keep layout rfl posted ?_ (by simp)
    simp [turning, Telling, show event.tag = .paint from paint]
  | cycle cycle =>
    refine h.keep layout (lastTold_cycle cycle) posted ?_ (by simp)
    simp [turning, Telling]
  | notice kind =>
    refine ⟨by simp, ?_⟩
    rintro _ _ _ ⟨⟩
    exact .inl ⟨rfl, nofun⟩
  | leave paint sizeChanged resize =>
    refine h.keep layout rfl posted ?_ (by simp)
    simp [turning, Telling, show event.tag ≠ .sizeChanged from sizeChanged]
  | report =>
    refine ⟨?_, fun tag size actual last => .inr (.inr trivial)⟩
    rintro _ _ ⟨⟩
    exact .inl rfl
  | settle =>
    refine h.keep layout rfl posted ?_ (by simp)
    simp [turning, Telling]
  | @tell size =>
    refine ⟨by simp, ?_⟩
    rintro _ _ _ ⟨⟩
    -- The layout was read before: it may have changed since, if a notice of that is on its way.
    rcases h.tell event size turning with same | due
    · exact .inl ⟨rfl, fun _ => same.trans layout.symm⟩
    · exact .inr (.inl (posted due))

theorem informed_change (h : w.Informed) (change : w.Change w') (whole : w'.Whole) :
    w'.Informed := by
  cases change with
  | adjust agrees noticed =>
    refine h.keep (by rw [agrees.layout]) rfl (fun posted => ?_) id fun _ _ => id
    refine posted.mono (fun due => ?_) fun _ mem _ => mem
    have isOpen : w.queue.closed = false := whole.isOpen
    exact .inl ((noticed due).resolve_right (by simp [isOpen]))
  | @enqueue kind cause calls isOpen fresh noticed =>
    refine h.keep rfl rfl (fun posted => ?_) id fun _ _ => id
    refine posted.mono (fun due => ?_) fun _ mem _ => List.mem_append_left _ mem
    refine (noticed due).imp id fun tag => ?_
    exact ⟨⟨w.queue.lastId + 1, kind⟩, List.mem_append_right _ (List.mem_singleton_self _), tag⟩
  | publish updated noticed =>
    -- The size may be another now, but the call that made it so has yet to post it.
    exact ⟨fun _ _ _ => .inr (.inl noticed), fun _ _ _ _ => .inr (.inl (.inl noticed))⟩
  | fault => exact absurd List.mem_cons_self (whole.layouts none)
  | compose agrees =>
    exact h.keep (by rw [agrees.layout]) rfl (·.same rfl rfl) id
      fun _ _ => id
  | @take event before after _ free paint events =>
    refine h.keep rfl rfl (fun posted => ?_) id fun _ _ => id
    refine posted.mono .inl fun other mem tag => ?_
    rw [events, List.mem_append, List.mem_cons] at mem
    rcases mem with early | rfl | late
    · exact List.mem_append_left _ early
    · simp [paint] at tag
    · exact List.mem_append_right _ late
  | drop =>
    refine h.keep rfl (lastTold_removals _) (fun posted => ?_) id fun _ _ => id
    refine posted.mono .inl fun event mem _ => ?_
    simp only [filter_eq_of_kept whole.kept]
    exact mem
  | @next event rest isOpen idle events =>
    refine ⟨by simp, fun tag size actual last => (h.told tag size actual last).imp_right ?_⟩
    rintro ((due | ⟨other, mem, tag⟩) | telling)
    · exact .inl (.inl due)
    · rcases List.mem_cons.mp (events ▸ mem) with rfl | later
      · exact .inr tag
      · exact .inl (.inr ⟨other, later, tag⟩)
    · simp [idle, Telling] at telling
  | advance turning agrees advance => exact informed_advance h turning agrees advance
  | @resize event width height turning kind =>
    refine h.keep rfl rfl (·.same rfl rfl) ?_ (by simp)
    simp [turning, Telling, Event.tag, kind, EventKind.tag]
  | @follow event changed canvas turning updated =>
    obtain ⟨-, -, same, -⟩ := Canvas.updateSize_eq_ok updated
    cases changed with
    | true => exact ⟨by simp, fun _ _ _ _ => .inr (.inr rfl)⟩
    | false =>
      refine h.keep (same rfl) rfl (·.same rfl rfl) ?_ (by simp)
      simp [turning, Telling]
  | give => exact absurd List.mem_cons_self (whole.layouts _)
  | @finish turn turning last =>
    refine h.keep rfl rfl (·.same rfl rfl) ?_ (by simp [finish])
    obtain ⟨event, phase⟩ := turn
    rcases last with last | last <;> cases last <;> simp [turning, Telling]
  | cycle running agrees cycle =>
    exact h.keep (by rw [agrees.layout]) (lastTold_cycle cycle)
      (·.same rfl rfl) id fun _ _ => id
  | finishInline =>
    exact h.keep rfl rfl (·.same rfl rfl) id fun _ _ => id

theorem Reaches.informed {canvas : Canvas} (reach : Reaches canvas w) (whole : w.Whole) :
    w.Informed := by
  revert whole
  refine reach.invariant (P := fun w => w.Whole → w.Informed) ?_ ?_
  · intro whole
    exact ⟨by simp, by simp [lastTold]⟩
  · intro w w' h change whole
    exact informed_change (h (change_whole change whole)) change whole

/-- When all is handled, the canvas has the size that it had when the application was told of one
last. So what the application was told is the size of the canvas exactly when it was told by a
resize, or by a notice that was still right when it was delivered. -/
theorem last_told_iff {canvas : Canvas} (reach : Reaches canvas w) (whole : w.Whole)
    (drained : w.Drained) (quiet : ¬ Noticed w.calls) {after before : List (Mark Work)}
    {tag : EventTag} {size actual : Size} (split : w.log = after ++ .told tag size actual :: before)
    (last : ∀ tag size actual, .told tag size actual ∉ after) :
    w.canvas.layout.size = actual ∧
      (size = w.canvas.layout.size ↔ tag = .displayResized ∨ size = actual) := by
  have told : lastTold w.log = some (tag, size, actual) := by rw [split, lastTold_split last]
  have unposted : ¬ (w.Posted ∨ Telling w.turn) := by
    rintro ((due | ⟨event, mem, -⟩) | telling)
    · exact quiet due
    · simp [drained.events] at mem
    · simp [drained.turn, Telling] at telling
  obtain ⟨same, right⟩ := ((reach.informed whole).told tag size actual told).resolve_right unposted
  refine ⟨same.symm, fun eq => .inr (eq.trans same.symm), ?_⟩
  rintro (resize | eq)
  · exact (right resize).trans same
  · exact eq.trans same

def fullscreenAfterSurface : List (Move Empty) :=
  [.surfaceChanged 2 1, .call 0] ++ takeUp 5 ++ takeUp 3 ++
    [.setFullscreen false false, .call 0, .call 0, .call 0] ++ takeUp 2

theorem fullscreenAfterSurface_end :
    (pixelWorld.run fullscreenAfterSurface).map
        (fun w => ((w.queue.closed, w.calls, w.queue.events, w.turn), w.log)) =
      some ((false, [], [], none),
        [.finished 3] ++ .told .sizeChanged ⟨2, 2⟩ ⟨2, 2⟩ :: [.began 3 .inTurn,
          .admitted ⟨3, .sizeChanged 2 2⟩ .fullscreen, .finished 2, .skipped 2, .began 2 .inTurn,
          .finished 1, .told .displayResized ⟨2, 1⟩ ⟨2, 1⟩, .resized 1, .began 1 .inTurn,
          .admitted ⟨2, .paint⟩ .surface, .admitted ⟨1, .displayResized 2 1⟩ .surface]) :=
  rfl

theorem last_told_iff_fullscreenAfterSurface : ∃ w : World Empty, Reaches pixelCanvas w ∧
    w.Drained ∧ (∃ before, w.log = [.finished 3] ++ .told .sizeChanged ⟨2, 2⟩ ⟨2, 2⟩ :: before) ∧
      w.canvas.layout.size = ⟨2, 2⟩ := by
  obtain ⟨w, made, ends⟩ := Option.map_eq_some_iff.mp fullscreenAfterSurface_end
  simp only [Prod.mk.injEq] at ends
  obtain ⟨⟨isOpen, calls, events, turn⟩, log⟩ := ends
  have reach : Reaches pixelCanvas w := Reaches.start.run made
  have whole : w.Whole := ⟨isOpen, by simp [log], by simp [log]⟩
  have quiet : ¬ Noticed w.calls := by simp [calls, Noticed]
  obtain ⟨same, -⟩ := last_told_iff reach whole ⟨events, turn⟩ quiet log (by simp)
  exact ⟨w, reach, ⟨events, turn⟩, ⟨_, log⟩, same⟩

/-- Full screen mode ends while a new surface is queued. -/
def fullscreenBehindSurface : List (Move Empty) :=
  [.surfaceChanged 2 1, .call 0, .setFullscreen false false, .call 0, .call 0, .call 0] ++
    takeUp 5 ++ takeUp 3 ++ takeUp 2

theorem fullscreenBehindSurface_end :
    (pixelWorld.run fullscreenBehindSurface).map
        (fun w =>
          ((w.queue.closed, w.calls, w.queue.events, w.turn, w.canvas.layout.size), w.log)) =
      some ((false, [], [], none, ⟨2, 2⟩),
        [.finished 3] ++ .told .sizeChanged ⟨1, 1⟩ ⟨2, 2⟩ :: [.began 3 .inTurn,
          .finished 2, .skipped 2, .began 2 .inTurn, .finished 1,
          .told .displayResized ⟨2, 2⟩ ⟨2, 2⟩, .resized 1, .began 1 .inTurn,
          .admitted ⟨3, .sizeChanged 1 1⟩ .fullscreen, .admitted ⟨2, .paint⟩ .surface,
          .admitted ⟨1, .displayResized 2 1⟩ .surface]) :=
  rfl

/-- The application may be left with a size that its canvas has no more. -/
theorem last_told_stale : ∃ w : World Empty, Reaches pixelCanvas w ∧ w.Whole ∧ w.Drained ∧
    w.calls = [] ∧ (∃ before actual,
      w.log = [.finished 3] ++ .told .sizeChanged ⟨1, 1⟩ actual :: before) ∧
    w.canvas.layout.size = ⟨2, 2⟩ := by
  obtain ⟨w, made, ends⟩ := Option.map_eq_some_iff.mp fullscreenBehindSurface_end
  simp only [Prod.mk.injEq] at ends
  obtain ⟨⟨isOpen, calls, events, turn, size⟩, log⟩ := ends
  exact ⟨w, Reaches.start.run made, ⟨isOpen, by simp [log], by simp [log]⟩, ⟨events, turn⟩, calls,
    ⟨_, _, log⟩, size⟩

end World

end Handset
