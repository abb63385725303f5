import Handset.Proofs.DisplaySize
import Handset.Proofs.PaintOrder

/-! What follows a resize: the frames after it have the new size of the display, and it is painted
after it unless the request to do so was merged with an older one. -/

namespace Handset

variable {Work : Type} {log after before : List (Mark Work)} {event : Event Work} {id : Nat}

theorem Lawful.lt_of_resized {hand : Event Work} (lawful : Lawful log) (mem : .resized id ∈ log)
    (admitted : Admitted log hand) (running : life hand.id log = .running .inTurn)
    (ne : hand.id ≠ id) : id < hand.id := by
  obtain ⟨before, ⟨began, -⟩, sub, -⟩ := lawful.split mem
  have began : .began id .inTurn ∈ log := sub (List.mem_cons_of_mem _ (began_mem began))
  by_cases lt : hand.id < id
  · obtain ⟨after, before, rfl⟩ := List.append_of_mem began
    have earlier := lawful.began_inTurn admitted lt
    have later : (life hand.id (.began id .inTurn :: before)).Precedes _ := lawful.life_append
    rw [running, life, if_neg (Ne.symm ne)] at later
    rcases earlier with now | now | now <;> simp [now, Life.Precedes] at later
  · omega

theorem Lawful.kept_of_began {way : Way} (lawful : Lawful log) (mem : .began id way ∈ log) :
    .removed id ∉ log := by
  intro removed
  have began := lawful.began mem
  simp [lawful.removed removed] at began

theorem Lawful.painted_facts (lawful : Lawful log) (mem : .painted id ∈ log) :
    HasTag log id .paint ∧ .removed id ∉ log := by
  obtain ⟨before, ⟨⟨way, running⟩, paint, -⟩, sub, later⟩ := lawful.split mem
  refine ⟨paint.mono fun _ mem => sub (List.mem_cons_of_mem _ mem), fun removed => ?_⟩
  have later := later id
  simp [life, running, lawful.removed removed, Life.Precedes] at later

theorem Lawful.painted_once (lawful : Lawful (after ++ before)) (mem : .painted id ∈ after) :
    ¬ Looked before id ∧ .skipped id ∉ after ++ before := by
  obtain ⟨late, early, rfl⟩ := List.append_of_mem mem
  rw [List.append_assoc, List.cons_append] at lawful
  obtain ⟨not_late, not_early⟩ := lawful.looked_once (.inl rfl)
  rw [looked_append] at not_early
  refine ⟨fun looked => not_early (.inr looked), fun skipped => ?_⟩
  simp only [List.mem_append, List.mem_cons, reduceCtorEq, false_or] at skipped
  rcases skipped with (skipped | skipped) | skipped
  · exact not_late (.inr skipped)
  · exact not_early (.inl (.inr skipped))
  · exact not_early (.inr (.inr skipped))

/-- A repaint older than a resize looks before it takes effect, unless it runs in place. -/
theorem Lawful.looked_before_resize (lawful : Lawful (after ++ .resized id :: before))
    (admitted : Admitted (after ++ .resized id :: before) event) (older : event.id < id)
    (paint : event.tag = .paint) (kept : .removed event.id ∉ after ++ .resized id :: before) :
    .began event.id .inPlace ∈ before ∨ Looked before event.id := by
  -- The older repaint was over, or ran in place, when the resize began.
  obtain ⟨began, -⟩ := lawful.fits
  obtain ⟨mid, earliest, rfl⟩ := List.append_of_mem (began_mem began)
  have split : after ++ .resized id :: (mid ++ .began id .inTurn :: earliest) =
      (after ++ .resized id :: mid) ++ .began id .inTurn :: earliest := by simp
  rw [split] at lawful admitted kept
  have sub : earliest ⊆ mid ++ .began id .inTurn :: earliest :=
    List.subset_append_of_subset_right _ (List.subset_cons_self ..)
  rcases lawful.began_inTurn admitted older with now | now | now
  · exact .inl (sub (began_mem now))
  · have tag : HasTag earliest event.id .paint := by
      have later : Lawful ((after ++ .resized id :: mid ++ [.began id .inTurn]) ++ earliest) := by
        simpa using lawful
      refine later.hasTag_before ⟨event, ?_, rfl, paint⟩ (by simp [now])
      simpa using admitted
    exact .inr ((lawful.suffix.tail.looked (finished_mem now) tag).mono sub)
  · refine absurd (removed_mem now) fun mem => kept ?_
    exact List.mem_append_right _ (List.mem_cons_of_mem _ mem)

/-- What is painted after a resize was let in behind it, or had begun in place before it. -/
theorem Lawful.behind_of_painted (lawful : Lawful (after ++ .resized event.id :: before))
    (admitted : Admitted (after ++ .resized event.id :: before) event)
    (resize : event.tag = .displayResized) (painted : .painted id ∈ after) :
    HasTag (after ++ .resized event.id :: before) id .paint ∧
      .skipped id ∉ after ++ .resized event.id :: before ∧ .painted id ∉ before ∧
        (event.id < id ∨ .began id .inPlace ∈ before) := by
  have mem : .painted id ∈ after ++ .resized event.id :: before := List.mem_append_left _ painted
  obtain ⟨paint, kept⟩ := lawful.painted_facts mem
  obtain ⟨fresh, unskipped⟩ := lawful.painted_once painted
  have unlooked : ¬ Looked before id := fun old => fresh (old.mono (List.subset_cons_self ..))
  refine ⟨paint, unskipped, fun old => unlooked (.inl old), ?_⟩
  rcases Nat.lt_trichotomy event.id id with later | rfl | older
  · exact .inl later
  · cases lawful.hasTag_unique ⟨event, admitted, rfl, resize⟩ paint
  · obtain ⟨other, admitted', rfl, tag⟩ := paint
    exact .inr ((lawful.looked_before_resize admitted' older tag kept).resolve_right unlooked)

theorem Lawful.born_of_resized (lawful : Lawful log) (mem : .resized id ∈ log) :
    life id log ≠ .unborn := by
  obtain ⟨before, ⟨began, -⟩, -, later⟩ := lawful.split mem
  exact (later id).born (by simp [life, began])

theorem Cycle.frames {canvas : Canvas} {phase phase' : PaintPhase} {marks : List (Mark Work)}
    (cycle : Cycle canvas id phase marks phase') :
    (∀ size, .composed size ∈ marks → size = canvas.frame.screen.size) ∧
      ∀ id, .resized id ∉ marks := by
  cases cycle <;> simp

theorem Advance.frames {canvas : Canvas} {phase phase' : Phase} {marks : List (Mark Work)}
    (advance : Advance canvas event phase marks phase') :
    (∀ size, .composed size ∈ marks → size = canvas.frame.screen.size) ∧
      ∀ id, .resized id ∉ marks := by
  cases advance with
  | cycle cycle => exact cycle.frames
  | _ => simp

theorem List.split_of_append {α : Type} {late early after before : List α} {a : α}
    (split : late ++ early = after ++ a :: before) (old : a ∉ late) :
    ∃ older, after = late ++ older ∧ early = older ++ a :: before := by
  rcases List.append_eq_append_iff.mp split with ⟨older, rfl, rfl⟩ | ⟨newer, rfl, eq⟩
  · exact ⟨older, rfl, rfl⟩
  · cases newer with
    | nil => exact ⟨[], by simp, by simpa using eq.symm⟩
    | cons mark newer =>
      cases eq
      simp at old

namespace World

variable {w w' : World Work} {canvas : Canvas}

/-- Frames are composed on the screen, and a resize takes effect by a change of its own. -/
theorem change_marks (change : w.Change w') :
    ∃ marks, w'.log = marks ++ w.log ∧
      (∀ size, .composed size ∈ marks → size = w'.canvas.frame.screen.size) ∧
      (∀ id, .resized id ∈ marks → marks = [.resized id] ∧ ∃ event changed,
        event.id = id ∧ w.turn = some ⟨event, .recompute⟩ ∧
          w.canvas.updateSize = .ok (changed, w'.canvas)) := by
  cases change with
  | adjust | publish | resize => exact ⟨[], rfl, by simp, by simp⟩
  | enqueue | fault | take | next | give | finish | finishInline =>
    exact ⟨[_], rfl, by simp, by simp⟩
  | compose => exact ⟨[_], rfl, by simp, by simp⟩
  | drop => exact ⟨_, rfl, by simp [removals], by simp [removals]⟩
  | advance turning agrees advance =>
    obtain ⟨frames, resized⟩ := advance.frames
    exact ⟨_, rfl, frames, fun id mem => absurd mem (resized id)⟩
  | follow turning updated =>
    refine ⟨[_], rfl, by simp, fun id mem => ?_⟩
    cases List.mem_singleton.mp mem
    exact ⟨rfl, _, _, rfl, turning, updated⟩
  | cycle running agrees cycle =>
    obtain ⟨frames, resized⟩ := cycle.frames
    exact ⟨_, rfl, frames, fun id mem => absurd mem (resized id)⟩

/-- Only a resize that begins changes the size in the settings, and the layout follows them. -/
theorem change_sizes (change : w.Change w') :
    (∃ event, w.turn = some ⟨event, .start⟩ ∧ event.tag = .displayResized) ∨
    (w'.canvas.settings.displaySize = w.canvas.settings.displaySize ∧
      (w'.canvas.layout = w.canvas.layout ∨
        w'.canvas.layout.displaySize = w'.canvas.settings.displaySize.positive)) := by
  cases change with
  | adjust agrees | compose agrees => exact .inr ⟨agrees.display, .inl agrees.layout⟩
  | enqueue | fault | take | drop | next | give | finish | finishInline =>
    exact .inr ⟨rfl, .inl rfl⟩
  | advance turning agrees advance => exact .inr ⟨agrees.display, .inl agrees.layout⟩
  | cycle running agrees cycle => exact .inr ⟨agrees.display, .inl agrees.layout⟩
  | resize turning kind =>
    exact .inl ⟨_, turning, by simp [Event.tag, kind, EventKind.tag]⟩
  | publish updated | follow _ updated =>
    obtain ⟨settings, layout, -⟩ := Canvas.updateSize_eq_ok updated
    refine .inr ⟨congrArg Settings.displaySize settings, .inr ?_⟩
    rw [settings]
    exact Settings.displaySize_layout layout

/-- The display has a size, and so has every frame that was composed after some marks. -/
structure Shows (w : World Work) (after : List (Mark Work)) (size : Size) : Prop where
  settings : w.canvas.settings.displaySize = size
  layout : w.canvas.layout.displaySize = size.positive
  frames : ∀ shown, .composed shown ∈ after → shown = size.positive

section Created

variable {config : Config} {kind : DisplayKind} {width height : Int} {now : Nat}

/-- Once a resize has taken effect, its size stays until another is let in. -/
theorem Reaches.shows (made : Canvas.create config kind width height now = .ok canvas)
    (reach : Reaches canvas w) {size : Size} (admitted : Admitted w.log event)
    (resize : event.kind.resize? = some size)
    (last : ∀ other, Admitted w.log other → event.id < other.id → other.tag ≠ .displayResized)
    (split : w.log = after ++ .resized event.id :: before) : w.Shows after size := by
  -- The mark of the resize is the newest, or was there before the last move.
  induction reach generalizing after with
  | start => simp at split
  | @step w w' move reach moved ih =>
    have change := step_change moved
    have ledger := reach.ledger
    have lawful := (reach.step moved).ledger.lawful
    have follows := (reach.step moved).follows made
    obtain ⟨marks, log, frames, resized⟩ := change_marks change
    by_cases new : .resized event.id ∈ marks
    · obtain ⟨rfl, hand, changed, same, turning, updated⟩ := resized event.id new
      rw [log] at split lawful admitted
      cases after with
      | nil =>
        obtain ⟨settings, layout, -⟩ := Canvas.updateSize_eq_ok updated
        have eq : hand = event := lawful.unique
          ((ledger.turn_facts turning).1.mono (List.subset_cons_self ..)) admitted same
        have asked : w.canvas.settings.displaySize = size := by
          have asked := (reach.follows made).recompute hand turning
          rw [eq, resize] at asked
          exact (Option.some.inj asked).symm
        refine ⟨(congrArg Settings.displaySize settings).trans asked, ?_, nofun⟩
        rw [Settings.displaySize_layout layout, asked]
      | cons mark after =>
        have rest : w.log = after ++ .resized event.id :: before := (List.cons.inj split).2
        have again : .resized event.id ∈ w.log := by simp [rest]
        exact absurd (same ▸ again) (ledger.turn_facts turning).2.2.2
    · rw [log] at split lawful admitted last
      obtain ⟨older, rfl, earlier⟩ := List.split_of_append split new
      have mem : .resized event.id ∈ w.log := by simp [earlier]
      have old : Admitted w.log event :=
        lawful.admitted_before admitted (ledger.lawful.born_of_resized mem) (Nat.le_refl _)
      have shows := ih old
        (fun other early => last other (early.mono (List.subset_append_right ..))) earlier
      rcases change_sizes change with ⟨hand, turning, tag⟩ | ⟨settings, layout⟩
      -- Another resize that begins was let in later, which the last one excludes.
      · obtain ⟨begun, running, -, fresh⟩ := ledger.turn_facts turning
        have lt := ledger.lawful.lt_of_resized mem begun running fun same => fresh (same ▸ mem)
        exact absurd tag (last hand (begun.mono (List.subset_append_right ..)) lt)
      · rw [shows.settings] at settings
        have layout : w'.canvas.layout.displaySize = size.positive := by
          rcases layout with same | new
          · rw [same, shows.layout]
          · rw [new, settings]
        refine ⟨settings, layout, fun shown mem => ?_⟩
        rcases List.mem_append.mp mem with new | old
        · rw [frames shown new, follows.fitted.screen, layout]
        · exact shows.frames shown old

section Drained

variable {canvas : Canvas}

/-- A resize that is neither removed nor without a layout has taken effect when all is handled. -/
theorem Reaches.takes_effect (reach : Reaches canvas w) (drained : w.Drained) (idle : w.runs = [])
    (admitted : Admitted w.log event) (resize : event.tag = .displayResized)
    (kept : .removed event.id ∉ w.log) (whole : .faulted (some event.id) ∉ w.log) :
    .resized event.id ∈ w.log := by
  have ledger := reach.ledger
  have done := (ledger.life_of_drained drained idle admitted).resolve_right
    fun removed => kept (removed_mem removed)
  have handled := ledger.lawful.resized (finished_mem done) ⟨event, admitted, rfl, resize⟩
  exact handled.resolve_right whole

/-- A repaint that was let in has been painted when all is handled, if it was neither removed nor
skipped. -/
theorem Reaches.painted (reach : Reaches canvas w) (drained : w.Drained) (idle : w.runs = [])
    (paint : HasTag w.log id .paint) (kept : .removed id ∉ w.log)
    (unskipped : .skipped id ∉ w.log) : .painted id ∈ w.log := by
  have ledger := reach.ledger
  have ⟨other, admitted, same, _⟩ := paint
  subst same
  have done := (ledger.life_of_drained drained idle admitted).resolve_right
    fun removed => kept (removed_mem removed)
  exact (ledger.lawful.looked (finished_mem done) paint).resolve_right unskipped

end Drained

/-- A resize that is handled to its end takes effect, and all frames after it have its size if it is
the last. It is painted after it exactly if some repaint finds the canvas shown that was let in
behind it, or is run in place from before it, and has not been painted by then. So a request to
repaint that is merged with an older one that waits ahead of the resize is lost to it. -/
theorem painted_after_resize_iff (made : Canvas.create config kind width height now = .ok canvas)
    (reach : Reaches canvas w) (drained : w.Drained) (idle : w.runs = [])
    (asked : .admitted event .surface ∈ w.log) {size : Size}
    (resize : event.kind.resize? = some size) (kept : ∀ id, event.id ≤ id → .removed id ∉ w.log)
    (whole : .faulted (some event.id) ∉ w.log) :
    .resized event.id ∈ w.log ∧ ∀ after before, w.log = after ++ .resized event.id :: before →
      ((∃ id, .painted id ∈ after) ↔ ∃ id, HasTag w.log id .paint ∧ .skipped id ∉ w.log ∧
        .painted id ∉ before ∧ (event.id < id ∨ .began id .inPlace ∈ before)) ∧
      ((∀ other, Admitted w.log other → event.id < other.id → other.tag ≠ .displayResized) →
        ∀ shown, .composed shown ∈ after → shown = size.positive) := by
  have admitted : Admitted w.log event := ⟨_, asked⟩
  have lawful := reach.ledger.lawful
  have tag := tag_of_resize? resize
  refine ⟨reach.takes_effect drained idle admitted tag (kept _ (Nat.le_refl _)) whole, ?_⟩
  intro after before split
  refine ⟨⟨?_, ?_⟩, fun last => (reach.shows made admitted resize last split).frames⟩
  · rintro ⟨id, painted⟩
    rw [split] at lawful admitted ⊢
    exact ⟨id, lawful.behind_of_painted admitted tag painted⟩
  · rintro ⟨id, paint, unskipped, unpainted, behind⟩
    have unremoved : .removed id ∉ w.log := by
      cases behind with
      | inl lt => exact kept id (Nat.le_of_lt lt)
      | inr inPlace =>
        have began : .began id .inPlace ∈ w.log := by simp [split, inPlace]
        exact lawful.kept_of_began began
    have painted := reach.painted drained idle paint unremoved unskipped
    rw [split, List.mem_append, List.mem_cons] at painted
    refine ⟨id, painted.resolve_right ?_⟩
    rintro (mark | old)
    · cases mark
    · exact unpainted old

end Created

def shownThenResized : List (Move Empty) :=
  [.post .showNotify] ++ takeUp 2 ++ [.surfaceChanged 2 1, .call 0] ++ takeUp 5 ++ takeUp 5

theorem shownThenResized_end : (pixelWorld.run shownThenResized).map World.outcome = some {
    shown := true
    displaySize := ⟨2, 1⟩
    log :=
      [.finished 3, .composed ⟨2, 1⟩, .painted 3, .began 3 .inTurn, .finished 2,
        .told .displayResized ⟨2, 1⟩ ⟨2, 1⟩] ++ .resized 2 :: [.began 2 .inTurn,
        .admitted ⟨3, .paint⟩ .surface, .admitted ⟨2, .displayResized 2 1⟩ .surface,
        .finished 1, .began 1 .inTurn, .admitted ⟨1, .showNotify⟩ .request] } := by
  decide +kernel

theorem painted_after_resize_iff_shownThenResized : ∃ w : World Empty, Reaches pixelCanvas w ∧
    w.Drained ∧ ∃ after before, w.log = after ++ .resized 2 :: before ∧
      ∃ id, .painted id ∈ after := by
  obtain ⟨w, made, ends⟩ := Option.map_eq_some_iff.mp shownThenResized_end
  simp only [outcome, Outcome.mk.injEq] at ends
  obtain ⟨-, -, -, events, turn, runs, -, log⟩ := ends
  have reach : Reaches pixelCanvas w := Reaches.start.run made
  have asked : .admitted ⟨2, .displayResized 2 1⟩ .surface ∈ w.log := by simp [log]
  obtain ⟨-, painted⟩ := painted_after_resize_iff create_pixelCanvas reach ⟨events, turn⟩ runs asked
    rfl (by simp [log]) (by simp [log])
  refine ⟨w, reach, ⟨events, turn⟩, _, _, log, (painted _ _ log).1.mpr ⟨3, ?_⟩⟩
  have paint : HasTag w.log 3 .paint := ⟨⟨3, .paint⟩, ⟨.surface, by simp [log]⟩, rfl, rfl⟩
  exact ⟨paint, by simp [log], by simp, .inl (by decide)⟩

/-- A request to repaint waits ahead of a new surface, whose own is merged with it. -/
def repaintThenResized : List (Move Empty) :=
  [.post .showNotify] ++ takeUp 2 ++ [.post .paint, .surfaceChanged 2 1, .call 0] ++ takeUp 5 ++
    takeUp 5

theorem repaintThenResized_end : (pixelWorld.run repaintThenResized).map World.outcome = some {
    shown := true
    displaySize := ⟨2, 1⟩
    log :=
      [.finished 3, .told .displayResized ⟨2, 1⟩ ⟨2, 1⟩] ++ .resized 3 :: [.began 3 .inTurn,
        .finished 2, .composed ⟨1, 1⟩, .painted 2, .began 2 .inTurn,
        .admitted ⟨3, .displayResized 2 1⟩ .surface, .admitted ⟨2, .paint⟩ .request,
        .finished 1, .began 1 .inTurn, .admitted ⟨1, .showNotify⟩ .request] } := by
  decide +kernel

/-- A resize may go without a repaint, with nothing left to do. -/
theorem resize_unpainted : ∃ w : World Empty, Reaches pixelCanvas w ∧ w.Drained ∧ w.runs = [] ∧
    w.calls = [] ∧ w.queue.closed = false ∧ w.canvas.shown = true ∧
    (∀ id, .removed id ∉ w.log) ∧ .admitted ⟨3, .displayResized 2 1⟩ .surface ∈ w.log ∧
    ∃ after before, w.log = after ++ .resized 3 :: before ∧ ∀ id, .painted id ∉ after := by
  obtain ⟨w, made, ends⟩ := Option.map_eq_some_iff.mp repaintThenResized_end
  simp only [outcome, Outcome.mk.injEq] at ends
  obtain ⟨isOpen, shown, -, events, turn, runs, calls, log⟩ := ends
  exact ⟨w, Reaches.start.run made, ⟨events, turn⟩, runs, calls, isOpen, shown, by simp [log],
    by simp [log], _, _, log, by simp⟩

end World

end Handset
