import Handset.Proofs.Change

/-! The size of the display. Resizes take effect in the order in which they were let in, so that the
last one wins, whoever posted it. -/

namespace Handset

variable {Work : Type} {log after before : List (Mark Work)}

/-- The size that the newest resize asks for. -/
def lastAsked : List (Mark Work) → Option Size
  | [] => none
  | .admitted event _ :: log => event.kind.resize?.or (lastAsked log)
  | _ :: log => lastAsked log

theorem lastAsked_append :
    lastAsked (after ++ before) = (lastAsked after).or (lastAsked before) := by
  induction after with
  | nil => rfl
  | cons mark after ih =>
    cases mark with
    | admitted event cause => simp only [List.cons_append, lastAsked, ih, Option.or_assoc]
    | _ => exact ih

/-- The size that the last queued resize brings. -/
def lastQueued (events : List (Event Work)) : Option Size :=
  (events.filterMap (·.kind.resize?)).getLast?

theorem lastQueued_append (early late : List (Event Work)) :
    lastQueued (early ++ late) = (lastQueued late).or (lastQueued early) := by
  simp only [lastQueued, List.filterMap_append, List.getLast?_append]

theorem lastQueued_singleton (event : Event Work) :
    lastQueued [event] = event.kind.resize? := by
  unfold lastQueued
  cases resize : event.kind.resize? <;> simp [resize]

namespace World

variable {w w' : World Work}

/-- The size that the event at hand brings, as long as it has not begun. -/
def brought : Option (Turn Work) → Option Size
  | some ⟨event, .start⟩ => event.kind.resize?
  | _ => none

/-- The size that the display will have when all that is queued is handled. -/
def asked (w : World Work) : Size :=
  ((lastQueued w.queue.events).or (brought w.turn)).getD w.canvas.settings.displaySize

theorem resize?_eq_none {event : Event Work} (other : event.tag ≠ .displayResized) :
    event.kind.resize? = none := by
  cases kind : event.kind with
  | displayResized => simp [Event.tag, kind, EventKind.tag] at other
  | _ => rfl

theorem tag_of_resize? {event : Event Work} {size : Size}
    (resize : event.kind.resize? = some size) : event.tag = .displayResized := by
  cases kind : event.kind with
  | displayResized => simp [Event.tag, kind, EventKind.tag]
  | _ => simp [kind, EventKind.resize?] at resize

theorem lastAsked_cycle {canvas : Canvas} {id : Nat} {phase phase' : PaintPhase}
    {marks : List (Mark Work)} (cycle : Cycle canvas id phase marks phase') :
    lastAsked marks = none := by
  cases cycle <;> rfl

theorem lastAsked_advance {canvas : Canvas} {event : Event Work} {phase phase' : Phase}
    {marks : List (Mark Work)} (advance : Advance canvas event phase marks phase') :
    lastAsked marks = none := by
  cases advance with
  | cycle cycle => exact lastAsked_cycle cycle
  | _ => rfl

theorem brought_advance {canvas : Canvas} {turn : Turn Work} {phase : Phase}
    {marks : List (Mark Work)} (advance : Advance canvas turn.event turn.phase marks phase) :
    brought (some turn) = none ∧ brought (some { turn with phase }) = none := by
  obtain ⟨event, before⟩ := turn
  cases advance with
  | enter paint => exact ⟨resize?_eq_none (by simp [show event.tag = .paint from paint]), rfl⟩
  | notice kind =>
    refine ⟨resize?_eq_none ?_, rfl⟩
    simp [Event.tag, show event.kind = _ from kind, EventKind.tag]
  | leave _ _ other => exact ⟨resize?_eq_none other, rfl⟩
  | cycle | report | settle | tell => exact ⟨rfl, rfl⟩

theorem lastAsked_removals (events : List (Event Work)) : lastAsked (removals events) = none := by
  induction events with
  | nil => rfl
  | cons event events ih => exact ih

theorem filter_eq_of_kept {events : List (Event Work)} {p : Event Work → Bool}
    (kept : ∀ id, .removed id ∉ removals (events.filter p) ++ log) :
    events.filter (fun event => !p event) = events := by
  refine List.filter_eq_self.mpr fun event mem => ?_
  cases selected : p event with
  | false => rfl
  | true =>
    refine absurd (List.mem_append_left _ ?_) (kept event.id)
    exact List.mem_map.mpr ⟨event, List.mem_filter.mpr ⟨mem, selected⟩, rfl⟩

/-- Every change either keeps both sides as they were or brings the same size to both. -/
theorem asked_change {first : Size} (h : w.asked = (lastAsked w.log).getD first)
    (change : w.Change w') (kept : ∀ id, .removed id ∉ w'.log) :
    w'.asked = (lastAsked w'.log).getD first := by
  unfold asked at h ⊢
  cases change with
  | adjust agrees =>
    simp only [agrees.display]
    exact h
  | @enqueue kind =>
    -- The newest resize in the log is also the last one in the queue.
    simp only [Queue.enqueue, lastAsked, lastQueued_append, lastQueued_singleton]
    cases resize : kind.resize? with
    | none => exact h
    | some size => rfl
  | publish updated =>
    obtain ⟨settings, -⟩ := Canvas.updateSize_eq_ok updated
    simp only [settings]
    exact h
  | fault => exact h
  | compose agrees =>
    simp only [agrees.display]
    exact h
  | @take event _ _ _ free paint events =>
    have none : event.kind.resize? = none := resize?_eq_none (by simp [paint])
    rw [events, lastQueued_append, ← List.singleton_append, lastQueued_append,
      lastQueued_singleton, none, Option.or_none] at h
    rw [lastQueued_append]
    exact h
  | drop =>
    simp only [lastAsked_append, lastAsked_removals, filter_eq_of_kept kept]
    exact h
  | @next event rest isOpen idle events =>
    have none : brought (none : Option (Turn Work)) = none := rfl
    rw [events, ← List.singleton_append, lastQueued_append, lastQueued_singleton, idle, none,
      Option.or_none] at h
    exact h
  | advance turning agrees advance =>
    obtain ⟨before, after⟩ := brought_advance advance
    simp only [turning, before] at h
    simp only [after, agrees.display, lastAsked_append, lastAsked_advance advance]
    exact h
  | @resize event width height turning kind =>
    -- What the event brought is from here on in the settings.
    have size : brought (some (⟨event, .start⟩ : Turn Work)) = some ⟨width, height⟩ := by
      rw [brought, kind]
      rfl
    have none : brought (some (⟨event, .recompute⟩ : Turn Work)) = none := rfl
    rw [turning, size, Option.getD_or, Option.getD_some] at h
    rw [none, Option.or_none]
    exact h
  | follow turning updated =>
    obtain ⟨settings, -⟩ := Canvas.updateSize_eq_ok updated
    rw [turning] at h
    simp only [settings]
    exact h
  | give turning =>
    rw [turning] at h
    exact h
  | @finish turn turning last =>
    have none : brought (some turn) = none := by
      obtain ⟨event, phase⟩ := turn
      rcases last with last | last
      all_goals
        cases last
        rfl
    rw [turning, none] at h
    exact h
  | cycle running agrees cycle =>
    simp only [agrees.display, lastAsked_append, lastAsked_cycle cycle]
    exact h
  | finishInline running last => exact h

/-! How the layout follows the settings. -/

/-- The layout is for the size in the settings, but for the moment before it is computed anew. -/
structure Follows (w : World Work) : Prop where
  fitted : w.canvas.Fitted
  recompute : ∀ event, w.turn = some ⟨event, .recompute⟩ →
    event.kind.resize? = some w.canvas.settings.displaySize
  layout : w.canvas.layout.displaySize = w.canvas.settings.displaySize.positive ∨
    (∃ event, w.turn = some ⟨event, .recompute⟩) ∨ ∃ id, .faulted id ∈ w.log

theorem Follows.keep (h : Follows w) (agrees : w.canvas.Agrees w'.canvas)
    (turn : ∀ event, w'.turn = some ⟨event, .recompute⟩ ↔ w.turn = some ⟨event, .recompute⟩)
    (log : w.log ⊆ w'.log) : Follows w' where
  fitted := h.fitted.of_agrees agrees
  recompute event turning := by
    rw [agrees.display]
    exact h.recompute event ((turn event).mp turning)
  layout := by
    rw [agrees.display, agrees.layout]
    exact h.layout.imp_right (.imp (.imp fun event => (turn event).mpr) (.imp fun _ mem => log mem))

theorem Follows.update {canvas : Canvas} {changed : Bool} (h : Follows w)
    (updated : w.canvas.updateSize = .ok (changed, canvas)) (new : w'.canvas = canvas)
    (turn : ∀ event, w'.turn = some ⟨event, .recompute⟩ → w.turn = some ⟨event, .recompute⟩) :
    Follows w' := by
  obtain ⟨settings, layout, -, fitted⟩ := Canvas.updateSize_eq_ok updated
  subst new
  refine ⟨fitted, fun event turning => ?_, .inl ?_⟩
  · rw [settings]
    exact h.recompute event (turn event turning)
  · rw [settings]
    exact Settings.displaySize_layout layout

theorem ne_recompute {turn : Turn Work} (phase : turn.phase ≠ .recompute) (event : Event Work) :
    some turn ≠ some ⟨event, .recompute⟩ := by
  rintro ⟨⟩
  exact phase rfl

theorem advance_ne_recompute {canvas : Canvas} {event : Event Work} {phase phase' : Phase}
    {marks : List (Mark Work)} (advance : Advance canvas event phase marks phase') :
    phase ≠ .recompute ∧ phase' ≠ .recompute := by
  cases advance <;> exact ⟨nofun, nofun⟩

theorem follows_change (h : Follows w) (change : w.Change w') : Follows w' := by
  cases change with
  | adjust agrees => exact h.keep agrees (fun _ => .rfl) (List.Subset.refl _)
  | enqueue | fault => exact h.keep (.refl _) (fun _ => .rfl) (List.subset_cons_self ..)
  | publish updated => exact h.update updated rfl fun _ => id
  | compose agrees => exact h.keep agrees (fun _ => .rfl) (List.subset_cons_self ..)
  | take => exact h.keep (.refl _) (fun _ => .rfl) (List.subset_cons_self ..)
  | drop => exact h.keep (.refl _) (fun _ => .rfl) (List.subset_append_right ..)
  | next isOpen idle events =>
    exact h.keep (.refl _) (fun event => by simp [idle]) (List.subset_cons_self ..)
  | advance turning agrees advance =>
    obtain ⟨before, after⟩ := advance_ne_recompute advance
    refine h.keep agrees (fun event => ?_) (List.subset_append_right ..)
    rw [turning]
    exact iff_of_false (ne_recompute after event) (ne_recompute before event)
  | resize turning kind =>
    refine ⟨⟨h.fitted.positive, h.fitted.screen⟩, ?_, .inr (.inl ⟨_, rfl⟩)⟩
    rintro _ ⟨⟩
    simp only [kind]
    rfl
  | follow turning updated => exact h.update updated rfl (by simp)
  | give turning => exact ⟨h.fitted, by simp, .inr (.inr ⟨_, List.mem_cons_self⟩)⟩
  | @finish turn turning last =>
    have before : turn.phase ≠ .recompute := by rcases last with last | last <;> simp [last]
    refine h.keep (.refl _) (fun event => ?_) (List.subset_cons_self ..)
    rw [turning]
    exact iff_of_false (by simp [finish]) (ne_recompute before event)
  | cycle running agrees cycle => exact h.keep agrees (fun _ => .rfl) (List.subset_append_right ..)
  | finishInline => exact h.keep (.refl _) (fun _ => .rfl) (List.subset_cons_self ..)

section Created

variable {config : Config} {kind : DisplayKind} {width height : Int} {now : Nat} {canvas : Canvas}

theorem follows_start (made : Canvas.create config kind width height now = .ok canvas) :
    Follows ({ canvas } : World Work) := by
  refine ⟨Canvas.fitted_create made, by simp, .inl ?_⟩
  obtain ⟨layout, computed, made⟩ := Checked.bind_eq_ok.mp made
  cases made
  exact Settings.displaySize_layout computed

theorem Reaches.follows (made : Canvas.create config kind width height now = .ok canvas)
    (reach : Reaches canvas w) : Follows w :=
  reach.invariant (follows_start made) follows_change

theorem change_log (change : w.Change w') : w.log ⊆ w'.log := by
  cases change with
  | adjust | publish | resize => exact List.Subset.refl _
  | enqueue | fault | compose | take | next | follow | give | finish | finishInline =>
    exact List.subset_cons_self ..
  | drop | advance | cycle => exact List.subset_append_right ..

/-- As long as nothing is removed, the display will have the size that was asked for last. -/
theorem Reaches.asked (reach : Reaches canvas w) (kept : ∀ id, .removed id ∉ w.log) :
    w.asked = (lastAsked w.log).getD canvas.settings.displaySize := by
  revert kept
  refine reach.invariant (P := fun w => (∀ id, .removed id ∉ w.log) →
    w.asked = (lastAsked w.log).getD canvas.settings.displaySize) (fun _ => rfl) ?_
  intro w w' h change kept
  exact asked_change (h fun id mem => kept id (change_log change mem)) change kept

/-- When all is handled the display has the size of a surface exactly when no resize of another size
was let in behind that of the surface. A change to full screen mode from inside a paint lets in such
a resize: it brings back the size that the display had while the surface was still queued. -/
theorem surface_wins_iff (made : Canvas.create config kind width height now = .ok canvas)
    (reach : Reaches canvas w) (drained : w.Drained) (kept : ∀ id, .removed id ∉ w.log)
    (whole : ∀ id, .faulted id ∉ w.log) {after before : List (Mark Work)} {event : Event Work}
    (split : w.log = after ++ .admitted event .surface :: before) {surface : Size}
    (resize : event.kind.resize? = some surface) :
    w.canvas.layout.displaySize = surface.positive ↔
      ∀ size, lastAsked after = some size → size.positive = surface.positive := by
  -- Nothing is on its way, so what was asked for last is in the settings.
  have asked : w.canvas.settings.displaySize = (lastAsked after).getD surface := by
    have asked := reach.asked kept
    rw [World.asked, drained.events, drained.turn, split, lastAsked_append, lastAsked, resize,
      Option.some_or, Option.getD_or, Option.getD_or, Option.getD_some] at asked
    exact asked
  have layout : w.canvas.layout.displaySize = w.canvas.settings.displaySize.positive := by
    refine (reach.follows made).layout.resolve_right ?_
    rintro (⟨event, turning⟩ | ⟨id, mem⟩)
    · rw [drained.turn] at turning
      cases turning
    · exact whole id mem
  rw [layout, asked]
  cases lastAsked after with
  | none => simp
  | some size => simp

end Created

def surfaceAlone : List (Move Empty) :=
  [.surfaceChanged 2 1, .call 0] ++ takeUp 5 ++ takeUp 3

theorem surfaceAlone_end :
    (pixelWorld.run surfaceAlone).map (fun w => (w.queue.events, w.turn, w.log)) =
      some ([], none,
        [.finished 2, .skipped 2, .began 2 .inTurn, .finished 1,
          .told .displayResized ⟨2, 1⟩ ⟨2, 1⟩, .resized 1, .began 1 .inTurn,
          .admitted ⟨2, .paint⟩ .surface] ++ .admitted ⟨1, .displayResized 2 1⟩ .surface :: []) :=
  rfl

theorem surface_wins_iff_surfaceAlone : ∃ w : World Empty, Reaches pixelCanvas w ∧ w.Drained ∧
    w.canvas.layout.displaySize = ⟨2, 1⟩ := by
  obtain ⟨w, made, ends⟩ := Option.map_eq_some_iff.mp surfaceAlone_end
  simp only [Prod.mk.injEq] at ends
  obtain ⟨events, turn, log⟩ := ends
  have reach : Reaches pixelCanvas w := Reaches.start.run made
  have wins := surface_wins_iff create_pixelCanvas reach ⟨events, turn⟩ (by simp [log])
    (by simp [log]) log rfl
  exact ⟨w, reach, ⟨events, turn⟩, wins.mpr (by simp [lastAsked, EventKind.resize?])⟩

/-- Full screen mode ends from inside a paint, while a new surface is queued. -/
def fullscreenInPaint : List (Move Empty) :=
  [.post .showNotify] ++ takeUp 2 ++ [.post .paint] ++ takeUp 3 ++
    [.surfaceChanged 2 1, .call 0, .setFullscreen false true, .call 0, .call 0] ++ carryOn 2 ++
    takeUp 5 ++ takeUp 5 ++ takeUp 5

theorem fullscreenInPaint_end : (pixelWorld.run fullscreenInPaint).map World.outcome = some {
    shown := true
    displaySize := ⟨1, 1⟩
    log :=
      [.finished 5, .told .displayResized ⟨1, 1⟩ ⟨1, 1⟩, .resized 5, .began 5 .inTurn,
        .finished 4, .composed ⟨2, 1⟩, .painted 4, .began 4 .inTurn,
        .finished 3, .told .displayResized ⟨2, 2⟩ ⟨2, 2⟩, .resized 3, .began 3 .inTurn,
        .finished 2, .composed ⟨1, 1⟩, .admitted ⟨5, .displayResized 1 1⟩ .fullscreen,
        .admitted ⟨4, .paint⟩ .surface] ++
      .admitted ⟨3, .displayResized 2 1⟩ .surface ::
      [.painted 2, .began 2 .inTurn, .admitted ⟨2, .paint⟩ .request,
        .finished 1, .began 1 .inTurn, .admitted ⟨1, .showNotify⟩ .request] } := by
  decide +kernel

/-- A surface may lose to the size that the display had before it. -/
theorem surface_lost : ∃ w : World Empty, Reaches pixelCanvas w ∧ w.Drained ∧
    w.queue.closed = false ∧ (∀ id, .removed id ∉ w.log) ∧ (∀ id, .faulted id ∉ w.log) ∧
    (∃ after before, w.log = after ++ .admitted ⟨3, .displayResized 2 1⟩ .surface :: before ∧
      ∀ event, event.tag = .displayResized → .admitted event .surface ∉ after) ∧
    w.canvas.layout.displaySize = ⟨1, 1⟩ := by
  obtain ⟨w, made, ends⟩ := Option.map_eq_some_iff.mp fullscreenInPaint_end
  simp only [outcome, Outcome.mk.injEq] at ends
  obtain ⟨isOpen, -, display, events, turn, -, -, log⟩ := ends
  refine ⟨w, Reaches.start.run made, ⟨events, turn⟩, isOpen, by simp [log], by simp [log],
    ⟨_, _, log, fun event resize mem => ?_⟩, display⟩
  have paint : event = ⟨4, .paint⟩ := by simpa using mem
  simp [paint, Event.tag, EventKind.tag] at resize

end World

end Handset
