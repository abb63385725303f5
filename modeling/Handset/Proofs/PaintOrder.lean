import Handset.Proofs.Ledger

/-! The order in which events begin. In turn an event begins when all that were let in before it are
over, but for a repaint that runs in place. A repaint in place looks at nothing but other repaints, and
so may come before a resize that it was to wait for. -/

namespace Handset

variable {Work : Type} {log before after : List (Mark Work)} {event : Event Work} {id : Nat}

/-- The event has been handled or will not be. -/
def Over (log : List (Mark Work)) (id : Nat) : Prop :=
  .finished id ∈ log ∨ .removed id ∈ log

theorem over_of_life (h : life id log = .done ∨ life id log = .removed) : Over log id :=
  h.imp finished_mem removed_mem

theorem Lawful.tag_of_inPlace (lawful : Lawful log) (mem : .began id .inPlace ∈ log) :
    HasTag log id .paint := by
  obtain ⟨before, ⟨-, paint, -⟩, sub, -⟩ := lawful.split mem
  exact paint.mono fun _ mem => sub (List.mem_cons_of_mem _ mem)

theorem Lawful.over_of_inTurn (lawful : Lawful (after ++ .began id .inTurn :: before))
    (admitted : Admitted (after ++ .began id .inTurn :: before) event) (earlier : event.id < id)
    (other : event.tag ≠ .paint) : Over before event.id := by
  rcases lawful.began_inTurn admitted earlier with running | ended
  · have sub : before ⊆ after ++ .began id .inTurn :: before :=
      List.subset_append_of_subset_right _ (List.subset_cons_self ..)
    have paint := (lawful.suffix.tail.tag_of_inPlace (began_mem running)).mono sub
    exact absurd (lawful.hasTag_unique ⟨event, admitted, rfl, rfl⟩ paint) other
  · exact over_of_life ended

theorem Lawful.over_of_inPlace (lawful : Lawful (after ++ .began id .inPlace :: before))
    (paint : HasTag before event.id .paint) (other : event.id ≠ id) : Over before event.id := by
  obtain ⟨-, -, alone⟩ := lawful.fits
  exact over_of_life (alone event.id other paint)

namespace World

/-- Whatever begins in turn, a repaint or not, begins when all that was let in before it is over,
but for repaints. Only a repaint begins in place, and only while no other is queued or under way. -/
theorem begins_in_order {canvas : Canvas} {w : World Work} (reach : Reaches canvas w) :
    (∀ after id before, w.log = after ++ .began id .inTurn :: before →
      ∀ event, Admitted w.log event → event.id < id → event.tag ≠ .paint →
        Over before event.id) ∧
    (∀ after id before, w.log = after ++ .began id .inPlace :: before →
      HasTag w.log id .paint ∧
        ∀ event, Admitted before event → event.id ≠ id → event.tag = .paint →
          Over before event.id) := by
  have lawful := reach.ledger.lawful
  constructor
  · intro after id before split event admitted earlier other
    rw [split] at lawful admitted
    exact lawful.over_of_inTurn admitted earlier other
  · intro after id before split
    have mem : .began id .inPlace ∈ w.log := by simp [split]
    refine ⟨lawful.tag_of_inPlace mem, fun event admitted other paint => ?_⟩
    rw [split] at lawful
    exact lawful.over_of_inPlace ⟨event, admitted, rfl, paint⟩ other

def resizeAndPaint : List (Move Empty) :=
  [.surfaceChanged 2 1, .call 0, .next, .handle true 0, .handle true 0, .handle true 0,
    .handle true 0, .handle true 0, .next]

theorem resizeAndPaint_log : (pixelWorld.run resizeAndPaint).map (·.log) =
    some [.began 2 .inTurn, .finished 1, .told .displayResized ⟨2, 1⟩ ⟨2, 1⟩, .resized 1,
      .began 1 .inTurn, .admitted ⟨2, .paint⟩ .surface,
      .admitted ⟨1, .displayResized 2 1⟩ .surface] :=
  rfl

theorem begins_in_order_resizeAndPaint : ∃ w : World Empty, Reaches pixelCanvas w ∧
    ∃ before, w.log = .began 2 .inTurn :: before ∧ Over before 1 := by
  obtain ⟨w, made, log⟩ := Option.map_eq_some_iff.mp resizeAndPaint_log
  have reach : Reaches pixelCanvas w := Reaches.start.run made
  have resize : Admitted w.log ⟨1, .displayResized 2 1⟩ := ⟨.surface, by simp [log]⟩
  exact ⟨w, reach, _, log,
    (begins_in_order reach).1 [] 2 _ log _ resize (by decide) (by decide)⟩

/-- A repaint is serviced while the new size of the display is still queued. -/
def serviceEarly : List (Move Empty) :=
  [.post .showNotify, .next, .handle true 0, .handle true 0, .surfaceChanged 2 1, .call 0,
    .service false 0, .run 0 true 0, .run 0 true 0]

theorem serviceEarly_log : (pixelWorld.run serviceEarly).map (·.log) =
    some [.painted 3, .began 3 .inPlace, .admitted ⟨3, .paint⟩ .surface,
      .admitted ⟨2, .displayResized 2 1⟩ .surface, .finished 1, .began 1 .inTurn,
      .admitted ⟨1, .showNotify⟩ .request] :=
  rfl

/-- Ahead of a repaint that is posted with it a resize is to be applied. In place the repaint begins
first, and paints at the old size. -/
theorem serviced_repaint_overtakes : ∃ w : World Empty, Reaches pixelCanvas w ∧
    ∃ after before, w.log = after ++ .began 3 .inPlace :: before ∧ HasTag w.log 3 .paint ∧
      ∃ event, Admitted w.log event ∧ event.tag = .displayResized ∧ event.id < 3 ∧
        ¬ Over before event.id := by
  obtain ⟨w, made, log⟩ := Option.map_eq_some_iff.mp serviceEarly_log
  refine ⟨w, Reaches.start.run made, [_], _, log, ⟨⟨3, .paint⟩, ⟨.surface, ?_⟩, rfl, rfl⟩,
    ⟨2, .displayResized 2 1⟩, ⟨.surface, ?_⟩, rfl, by decide, ?_⟩
  · simp [log]
  · simp [log]
  · simp [Over]

end World

end Handset
