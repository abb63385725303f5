import Handset.Queue

/-! What an operation of the queue can do. Each lemma lists the answers that an operation may give,
with the condition for each and what is left of the queue. -/

namespace Handset.Queue

variable {Work : Type} {q q' : Queue Work} {tag : EventTag} {kind : EventKind Work}
  {event : Event Work}

/-- Only a request to repaint is the same as a queued event. -/
theorem coalesces_iff :
    q.coalesces tag = true ↔ tag = .paint ∧ ∃ event ∈ q.events, event.tag = .paint := by
  unfold coalesces EventTag.isDuplicate EventTag.placeableAfter
  constructor
  · intro h
    rcases Bool.or_eq_true_iff.mp h with duplicate | misplaced
    · simp only [List.any_eq_true, Bool.and_eq_true, beq_iff_eq] at duplicate
      obtain ⟨event, queued, rfl, paint⟩ := duplicate
      exact ⟨rfl, event, queued, paint⟩
    · split at misplaced
      · rename_i last newest
        simp only [Bool.not_not, Bool.and_eq_true, beq_iff_eq] at misplaced
        exact ⟨misplaced.1, last, List.mem_of_getLast? newest, misplaced.2⟩
      · cases misplaced
  · rintro ⟨rfl, event, queued, paint⟩
    refine Bool.or_eq_true_iff.mpr (.inl (List.any_eq_true.mpr ⟨event, queued, ?_⟩))
    simp [paint]

def enqueue (q : Queue Work) (kind : EventKind Work) : Queue Work :=
  { q.enter kind.tag with
    events := q.events ++ [⟨q.lastId + 1, kind⟩], lastId := q.lastId + 1 }

theorem post_cases (q : Queue Work) (kind : EventKind Work) :
    (q.closed = true ∧ q.post kind = (.closed, q)) ∨
    (q.closed = false ∧ kind.tag = .paint ∧ (∃ event ∈ q.events, event.tag = .paint) ∧
      q.post kind = (.coalesced, q)) ∨
    (q.closed = false ∧ (kind.tag = .paint → ∀ event ∈ q.events, event.tag ≠ .paint) ∧
      q.post kind = (.queued (q.lastId + 1), q.enqueue kind)) := by
  unfold post
  split
  · exact .inl ⟨‹_›, rfl⟩
  · rename_i isOpen
    rw [Bool.not_eq_true] at isOpen
    split
    · rename_i same
      obtain ⟨paint, queued⟩ := coalesces_iff.mp same
      exact .inr (.inl ⟨isOpen, paint, queued, rfl⟩)
    · rename_i fresh
      refine .inr (.inr ⟨isOpen, fun paint event queued same => fresh ?_, rfl⟩)
      exact coalesces_iff.mpr ⟨paint, event, queued, same⟩

theorem next?_eq_some (h : q.next? = some (event, q')) :
    q.closed = false ∧ ∃ rest, q.events = event :: rest ∧
      q' = { q.leave event.tag with events := rest, current := some (event.tag, event.id) } := by
  unfold next? at h
  split at h
  · cases h
  · rename_i isOpen
    split at h
    · cases h
    · rename_i head rest events
      cases h
      exact ⟨by simpa using isOpen, rest, events, rfl⟩

theorem remove_snd (q : Queue Work) (p : Event Work → Bool) :
    ∃ queued, (q.remove p).2 =
      { q with events := q.events.filter fun event => !p event, queued } := by
  have leaves (events : List (Event Work)) (q : Queue Work) :
      ∃ queued, events.foldl (fun q event => q.leave event.tag) q = { q with queued } := by
    induction events generalizing q with
    | nil => exact ⟨q.queued, rfl⟩
    | cons event events ih =>
      obtain ⟨queued, h⟩ := ih (q.leave event.tag)
      exact ⟨queued, h⟩
  obtain ⟨queued, h⟩ := leaves (q.events.filter p)
    { q with events := q.events.filter fun event => !p event }
  exact ⟨queued, h⟩

theorem count_complete (q : Queue Work) (tag other : EventTag) :
    (q.complete tag).completed.count other =
      q.completed.count other + if tag = other then 1 else 0 := by
  rw [complete, Tally.count_adjust]
  split
  · rename_i same
    rw [same]
  · rfl

/-- Some run of the tag is in progress, in turn or in place. -/
theorem inProgress_iff : q.inProgress tag = true ↔
    (∃ id, q.current = some (tag, id)) ∨ ∃ thread, (tag, thread) ∈ q.inlineRuns := by
  unfold inProgress
  refine Bool.or_eq_true_iff.trans (or_congr ?_ ?_)
  · cases q.current with
    | none => simp
    | some current => simp [Prod.ext_iff]
  · simp

/-- Takes the first event of the tag out, to be run in place. -/
theorem flush_cases (q : Queue Work) (tag : EventTag) (reentrant : Bool) (thread : Nat) :
    (reentrant = true ∧ q.flush tag reentrant thread = (.reentrant, q)) ∨
    (reentrant = false ∧ q.inProgress tag = true ∧
      q.flush tag reentrant thread = (.busy (q.completed.count tag), q)) ∨
    (reentrant = false ∧ q.inProgress tag = false ∧ ∃ before event after,
      q.events = before ++ event :: after ∧ event.tag = tag ∧
      q.events.find? (·.tag == tag) = some event ∧
      q.flush tag reentrant thread = (.take, { q.leave tag with
        events := before ++ after, inlineRuns := q.inlineRuns ++ [(tag, thread)] })) ∨
    (reentrant = false ∧ q.inProgress tag = false ∧ (∀ event ∈ q.events, event.tag ≠ tag) ∧
      q.flush tag reentrant thread = (.idle, q)) := by
  unfold flush
  cases reentrant with
  | true => exact .inl ⟨rfl, rfl⟩
  | false =>
    refine .inr ?_
    cases busy : q.inProgress tag with
    | true => exact .inl ⟨rfl, rfl, rfl⟩
    | false =>
      refine .inr ?_
      cases found : q.events.find? (·.tag == tag) with
      | none =>
        have absent : ∀ event ∈ q.events, event.tag ≠ tag := by simpa using found
        have none : q.events.any (·.tag == tag) = false := by simpa using absent
        exact .inr ⟨rfl, rfl, absent, by simp [none]⟩
      | some event =>
        obtain ⟨same, before, after, events, first⟩ := List.find?_eq_some_iff_append.mp found
        have tagged : event.tag = tag := by simpa using same
        have first : ∀ other ∈ before, ¬ (other.tag == tag) = true := by simpa using first
        refine .inl ⟨rfl, rfl, before, event, after, events, tagged, rfl, ?_⟩
        have rest : q.events.eraseP (·.tag == tag) = before ++ after := by
          rw [events, List.eraseP_append_right _ first, List.eraseP_cons, same]
          rfl
        have queued : q.events.any (·.tag == tag) = true := by simp [events, tagged]
        simp [rest, queued]

/-- A repaint is taken out only while none is in progress, and the others keep their order. -/
theorem flush_eq_take {painting : Bool} {thread : Nat}
    (h : q.flush tag painting thread = (.take, q'))
    (found : q.events.find? (·.tag == tag) = some event) :
    q.inProgress tag = false ∧ event.tag = tag ∧ ∃ before after,
      q.events = before ++ event :: after ∧ q' = { q.leave tag with
        events := before ++ after, inlineRuns := q.inlineRuns ++ [(tag, thread)] } := by
  rcases q.flush_cases tag painting thread with ⟨-, eq⟩ | ⟨-, -, eq⟩ |
    ⟨-, free, before, first, after, events, tagged, found', eq⟩ | ⟨-, -, -, eq⟩
  · simp [eq] at h
  · simp [eq] at h
  · rw [found'] at found
    cases found
    rw [eq] at h
    cases h
    exact ⟨free, tagged, before, after, events, rfl⟩
  · simp [eq] at h

theorem exists_of_flush_take {reentrant : Bool} {thread : Nat}
    (h : q.flush tag reentrant thread = (.take, q')) :
    ∃ event, q.events.find? (·.tag == tag) = some event := by
  rcases q.flush_cases tag reentrant thread with ⟨-, eq⟩ | ⟨-, -, eq⟩ |
    ⟨-, -, before, event, after, -, -, found, -⟩ | ⟨-, -, -, eq⟩
  · simp [eq] at h
  · simp [eq] at h
  · exact ⟨event, found⟩
  · simp [eq] at h

theorem flush_of_ne_take {reentrant : Bool} {thread : Nat} {outcome : FlushOutcome}
    (h : q.flush tag reentrant thread = (outcome, q')) (other : outcome ≠ .take) : q' = q := by
  rcases q.flush_cases tag reentrant thread with ⟨-, eq⟩ | ⟨-, -, eq⟩ |
    ⟨-, -, before, event, after, -, -, -, eq⟩ | ⟨-, -, -, eq⟩
  all_goals
    rw [eq] at h
    cases h
  · rfl
  · rfl
  · exact absurd rfl other
  · rfl

theorem close_cases (q : Queue Work) :
    (q.closed = true ∧ q.close = (none, q)) ∨
    (q.closed = false ∧
      q.close = (some q.size, { q with events := [], queued := {}, closed := true })) := by
  unfold close
  cases q.closed with
  | true => exact .inl ⟨rfl, rfl⟩
  | false => exact .inr ⟨rfl, rfl⟩

/-- Only the event that is posted is new. -/
theorem mem_of_mem_post (mem : event ∈ (q.post kind).2.events) :
    event ∈ q.events ∨ event.kind = kind := by
  rcases q.post_cases kind with ⟨-, eq⟩ | ⟨-, -, -, eq⟩ | ⟨-, -, eq⟩
  · exact .inl (by simpa [eq] using mem)
  · exact .inl (by simpa [eq] using mem)
  · have mem : event ∈ q.events ++ [⟨q.lastId + 1, kind⟩] := by simpa [eq, enqueue] using mem
    refine (List.mem_append.mp mem).imp_right fun new => ?_
    rw [List.mem_singleton.mp new]

theorem mem_of_mem_close (mem : event ∈ q.close.2.events) : event ∈ q.events := by
  rcases q.close_cases with ⟨-, eq⟩ | ⟨-, eq⟩
  · simpa [eq] using mem
  · simp [eq] at mem

theorem mem_of_mem_remove {p : Event Work → Bool} (mem : event ∈ (q.remove p).2.events) :
    event ∈ q.events := by
  obtain ⟨queued, removed⟩ := q.remove_snd p
  rw [removed] at mem
  exact (List.mem_filter.mp mem).1

theorem mem_of_mem_flush {reentrant : Bool} {thread : Nat}
    (mem : event ∈ (q.flush tag reentrant thread).2.events) : event ∈ q.events := by
  rcases q.flush_cases tag reentrant thread with
    ⟨-, eq⟩ | ⟨-, -, eq⟩ | ⟨-, -, before, taken, after, events, -, -, eq⟩ | ⟨-, -, -, eq⟩
  · simpa [eq] using mem
  · simpa [eq] using mem
  · have mem : event ∈ before ++ after := by simpa [eq] using mem
    rw [events]
    exact ((List.sublist_cons_self ..).append_left before).subset mem
  · simpa [eq] using mem

/-- The last run may change its place, but no other is taken out. -/
theorem perm_unregister {runs : List (EventTag × Nat)} {run : EventTag × Nat} (mem : run ∈ runs) :
    runs.Perm (run :: unregister runs run) := by
  obtain ⟨before, after, rfl, fresh⟩ := List.eq_append_cons_of_mem mem
  have found : (before ++ run :: after).idxOf? run = some before.length := by
    refine List.idxOf?_eq_some_iff.mpr ⟨by simp, by simp, fun j lt same => fresh ?_⟩
    rw [← same, List.getElem_append_left lt]
    exact List.getElem_mem lt
  rcases List.eq_nil_or_concat after with rfl | ⟨mid, last, rfl⟩
  · have rest : unregister (before ++ [run]) run = before := by
      simp [unregister, found]
    rw [rest]
    exact List.perm_append_singleton run before
  · have split : before ++ run :: mid.concat last = (before ++ run :: mid) ++ [last] := by simp
    have rest : unregister (before ++ run :: mid.concat last) run = before ++ last :: mid := by
      have newest : (before ++ run :: mid.concat last).getLast? = some last := by
        rw [split, List.getLast?_concat]
      have set : (before ++ run :: mid.concat last).set before.length last =
          (before ++ last :: mid) ++ [last] := by simp
      simp only [unregister, found, newest, set, List.dropLast_concat]
    rw [rest, List.concat_eq_append]
    refine List.perm_middle.trans (.cons run (.append_left before ?_))
    exact List.perm_append_singleton last mid

end Handset.Queue
