import Handset.Proofs.Delivery

/-! Requests to repaint that are merged with a queued one. None of them is lost: what stands for a
request is an event that waits, never one that is at work when the request is made. -/

namespace Handset

variable {Work : Type}

namespace Queue

variable {q : Queue Work} {kind : EventKind Work}

theorem post_coalesced_iff (isOpen : q.closed = false) : (q.post kind).1 = .coalesced ↔
    kind.tag = .paint ∧ ∃ event ∈ q.events, event.tag = .paint := by
  rcases q.post_cases kind with ⟨isClosed, -⟩ | ⟨-, paint, queued, eq⟩ | ⟨-, fresh, eq⟩
  · cases isOpen.symm.trans isClosed
  · simp only [eq, true_iff]
    exact ⟨paint, queued⟩
  · simp only [eq, reduceCtorEq, false_iff]
    rintro ⟨paint, event, queued, same⟩
    exact fresh paint event queued same

theorem eq_of_post_coalesced (merged : (q.post kind).1 = .coalesced) : (q.post kind).2 = q := by
  rcases q.post_cases kind with ⟨-, eq⟩ | ⟨-, -, -, eq⟩ | ⟨-, -, eq⟩
  · simp [eq]
  · simp [eq]
  · simp [eq] at merged

theorem post_of_ne_coalesced (isOpen : q.closed = false) (apart : (q.post kind).1 ≠ .coalesced) :
    ∃ id, (q.post kind).1 = .queued id ∧ (q.post kind).2.events = q.events ++ [⟨id, kind⟩] := by
  rcases q.post_cases kind with ⟨isClosed, -⟩ | ⟨-, -, -, eq⟩ | ⟨-, -, eq⟩
  · cases isOpen.symm.trans isClosed
  · exact absurd (by rw [eq]) apart
  · exact ⟨q.lastId + 1, by rw [eq], by rw [eq]; rfl⟩

end Queue

namespace Traffic

variable {t t' : Traffic Work} {kind : EventKind Work}

/-- Whatever is answered, a repaint waits in a queue that is open. -/
theorem exists_queued_paint (isOpen : t.queue.closed = false) :
    ∃ event ∈ (t.post .paint).queue.events, event.tag = .paint := by
  unfold post
  rcases t.queue.post_cases .paint with ⟨isClosed, -⟩ | ⟨-, -, queued, eq⟩ | ⟨-, -, eq⟩
  · cases isOpen.symm.trans isClosed
  · rw [eq]
    exact queued
  · rw [eq]
    exact ⟨_, List.mem_append_right _ List.mem_cons_self, rfl⟩

/-- What waits has not left. -/
theorem Accounts.id_ne_of_left (accounts : t.Accounts) {event other : Event Work} {exit : Exit}
    (queued : event ∈ t.queue.events) (left : .left exit other ∈ t.log) : other.id ≠ event.id := by
  have waits := accounts.fates_eq (queued_mem_whereabouts.mpr queued)
  have gone := accounts.fates_eq (gone_mem_whereabouts.mpr left)
  intro same
  rw [same, waits] at gone
  cases gone

/-- An event that waits is not at work. -/
theorem Accounts.id_ne (accounts : t.Accounts) (handles : t.Handles) {event : Event Work}
    (queued : event ∈ t.queue.events) {run : Run Work} (working : run ∈ t.inTurn ++ t.inPlace) :
    run.event.id ≠ event.id := by
  obtain ⟨exit, left⟩ := handles.left working
  exact accounts.id_ne_of_left queued left

/-- An open queue merges a request to repaint with one that waits, and nothing else. Whatever it
answers to such a request, once no repaint waits any more one has left that waited when the request
had been made, and that was not at work then. -/
theorem repaint_served (reaches : Reaches Discipline.free t) (isOpen : t.queue.closed = false) :
    (∀ kind,
      ((t.queue.post kind).1 = .coalesced ↔
        kind.tag = .paint ∧ ∃ event ∈ t.queue.events, event.tag = .paint) ∧
      ((t.queue.post kind).1 = .coalesced → (t.queue.post kind).2 = t.queue) ∧
      ((t.queue.post kind).1 ≠ .coalesced → ∃ id, (t.queue.post kind).1 = .queued id ∧
        (t.queue.post kind).2.events = t.queue.events ++ [⟨id, kind⟩])) ∧
    ∀ t', Leads Discipline.free (t.post .paint) t' →
      (∀ event ∈ t'.queue.events, event.tag ≠ .paint) →
      ∃ late, t'.log = late ++ (t.post .paint).log ∧ ∃ exit event,
        .left exit event ∈ late ∧ event.tag = .paint ∧ event ∈ (t.post .paint).queue.events ∧
        ∀ run ∈ t.inTurn ++ t.inPlace, run.event.id ≠ event.id := by
  refine ⟨fun kind => ⟨Queue.post_coalesced_iff isOpen, Queue.eq_of_post_coalesced,
    Queue.post_of_ne_coalesced isOpen⟩, fun t' leads none => ?_⟩
  have made : t.step (.post .paint) = some (t.post .paint) := rfl
  have asked : Reaches Discipline.free (t.post .paint) := reaches.step rfl made
  obtain ⟨event, queued, paint⟩ := exists_queued_paint isOpen
  obtain ⟨late, log, kept⟩ := leads.kept
  rcases kept event queued with waits | ⟨exit, left⟩
  · exact absurd paint (none event waits)
  · refine ⟨late, log, exit, event, left, paint, queued, fun run working => ?_⟩
    rw [← t.post_inTurn .paint, ← t.post_inPlace .paint] at working
    exact (asked.accounts accounts_empty).id_ne (asked.handles handles_empty) queued working

/-- A repaint is at work and another one waits. -/
def paintAndPaint : List (Operation Unit) :=
  [.post .paint, .pop 0, .post .paint]

theorem paintAndPaint_end : (({} : Traffic Unit).run Discipline.free paintAndPaint).map
      (fun t => (t.queue.closed, t.queue.events, t.inTurn, t.inPlace, (t.queue.post .paint).1)) =
    some (false, [⟨2, .paint⟩], [⟨⟨1, .paint⟩, 0⟩], [], .coalesced) :=
  rfl

theorem paintAndPaint_served :
    ((({} : Traffic Unit).run Discipline.free paintAndPaint).bind fun t =>
      ((t.post .paint).run Discipline.free [.finish 0, .pop 0]).map (·.queue.events.length)) =
    some 0 :=
  rfl

theorem repaint_served_paintAndPaint : ∃ t t' : Traffic Unit, Reaches Discipline.free t ∧
    t.queue.closed = false ∧ (t.queue.post .paint).1 = .coalesced ∧
    (t.queue.post .paint).2 = t.queue ∧ Leads Discipline.free (t.post .paint) t' ∧
    (∀ event ∈ t'.queue.events, event.tag ≠ .paint) ∧
    ∃ late, t'.log = late ++ (t.post .paint).log ∧ ∃ exit event,
      .left exit event ∈ late ∧ event.tag = .paint ∧ event.id ≠ 1 := by
  obtain ⟨t, made, ends⟩ := Option.map_eq_some_iff.mp paintAndPaint_end
  simp only [Prod.mk.injEq] at ends
  obtain ⟨isOpen, events, inTurn, inPlace, merged⟩ := ends
  obtain ⟨t₁, made₁, served⟩ := Option.bind_eq_some_iff.mp paintAndPaint_served
  cases made.symm.trans made₁
  obtain ⟨t', rest, empty⟩ := Option.map_eq_some_iff.mp served
  have none : ∀ event ∈ t'.queue.events, event.tag ≠ .paint := by
    simp [List.length_eq_zero_iff.mp empty]
  obtain ⟨answers, after⟩ := repaint_served (leads_run made) isOpen
  obtain ⟨late, log, exit, event, left, paint, -, apart⟩ := after t' (leads_run rest) none
  refine ⟨t, t', leads_run made, isOpen, merged, (answers .paint).2.1 merged, leads_run rest, none,
    late, log, exit, event, left, paint, ?_⟩
  exact (apart ⟨⟨1, .paint⟩, 0⟩ (by simp [inTurn])).symm

end Traffic

end Handset
