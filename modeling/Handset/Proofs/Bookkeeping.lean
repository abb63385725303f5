import Handset.Proofs.QueueSessions

/-! What the queue keeps about itself: the number of queued events of each tag, the ids, and whether
it is closed. Each operation keeps its own part of that up to date, and so does every run of
operations. -/

namespace Handset

variable {Work : Type}

namespace Queue

variable {q q' : Queue Work} {event : Event Work} {kind : EventKind Work} {tag : EventTag}

/-- Events leave one after the other: each is counted out of its tag. -/
def leaveAll (q : Queue Work) (events : List (Event Work)) : Queue Work :=
  events.foldl (fun q event => q.leave event.tag) q

/-- The parts of a queue fit together. -/
structure Sound (q : Queue Work) : Prop where
  counted : ∀ tag, q.queued.count tag = q.events.countP (·.tag == tag)
  sorted : q.events.Pairwise fun a b => a.id < b.id
  numbered : ∀ event ∈ q.events, event.id ≤ q.lastId
  current : ∀ tag id, q.current = some (tag, id) → id ≤ q.lastId ∧ ∀ event ∈ q.events, id < event.id
  lone : q.events.countP (·.tag == .paint) ≤ 1
  closed : q.closed = true → q.events = []

theorem count_leave (q : Queue Work) (tag other : EventTag) :
    (q.leave tag).queued.count other = q.queued.count other - if tag = other then 1 else 0 := by
  rw [leave, Tally.count_adjust]
  split
  · rename_i same
    rw [same]
  · rfl

theorem count_enter (q : Queue Work) (tag other : EventTag) :
    (q.enter tag).queued.count other = q.queued.count other + if tag = other then 1 else 0 := by
  rw [enter, Tally.count_adjust]
  split
  · rename_i same
    rw [same]
  · rfl

theorem count_leaveAll (q : Queue Work) (gone : List (Event Work)) (tag : EventTag) :
    (q.leaveAll gone).queued.count tag = q.queued.count tag - gone.countP (·.tag == tag) := by
  induction gone generalizing q with
  | nil => rfl
  | cons event gone ih =>
    have rest : q.leaveAll (event :: gone) = (q.leave event.tag).leaveAll gone := rfl
    rw [rest, ih, count_leave, List.countP_cons]
    simp only [beq_iff_eq]
    omega

/-- Only the counts matter for what is left of them. -/
theorem queued_leaveAll (same : q.queued = q'.queued) (gone : List (Event Work)) :
    (q.leaveAll gone).queued = (q'.leaveAll gone).queued := by
  induction gone generalizing q q' with
  | nil => exact same
  | cons event gone ih => exact ih (congrArg (·.adjust event.tag (· - 1)) same)

theorem queued_remove (q : Queue Work) (p : Event Work → Bool) :
    (q.remove p).2.queued = (q.leaveAll (q.events.filter p)).queued := by
  have same : { q with events := q.events.filter fun event => !p event }.queued = q.queued := rfl
  exact queued_leaveAll same _

theorem sound_empty : ({} : Queue Work).Sound where
  counted := by simp
  sorted := .nil
  numbered := nofun
  current := nofun
  lone := Nat.zero_le 1
  closed _ := rfl

namespace Sound

/-- Some of the queued events stay, and are counted. -/
theorem sublist (sound : q.Sound) (kept : q'.events.Sublist q.events)
    (counted : ∀ tag, q'.queued.count tag = q'.events.countP (·.tag == tag))
    (current : q'.current = q.current) (lastId : q'.lastId = q.lastId)
    (closed : q'.closed = true → q'.events = []) : q'.Sound where
  counted := counted
  sorted := sound.sorted.sublist kept
  numbered event queued := by
    rw [lastId]
    exact sound.numbered event (kept.subset queued)
  current tag id now := by
    rw [current] at now
    rw [lastId]
    obtain ⟨known, behind⟩ := sound.current tag id now
    exact ⟨known, fun event queued => behind event (kept.subset queued)⟩
  lone := Nat.le_trans kept.countP_le sound.lone
  closed := closed

/-- An event that is queued is counted, also while others are being counted out. -/
theorem count_pos {before after : List (Event Work)} (sound : q.Sound)
    (gone : (before ++ event :: after).Sublist q.events) :
    0 < (q.leaveAll before).queued.count event.tag := by
  have all := gone.countP_le (p := fun other => other.tag == event.tag)
  rw [List.countP_append, List.countP_cons_of_pos (by simp)] at all
  rw [count_leaveAll, sound.counted]
  omega

theorem enqueue (sound : q.Sound) (isOpen : q.closed = false)
    (fresh : kind.tag = .paint → ∀ event ∈ q.events, event.tag ≠ .paint) :
    (q.enqueue kind).Sound where
  counted tag := by
    have entered : (q.enqueue kind).queued.count tag =
        q.queued.count tag + if kind.tag = tag then 1 else 0 := count_enter ..
    rw [entered, sound.counted, Queue.enqueue, List.countP_append, List.countP_singleton]
    simp only [Event.tag, beq_iff_eq]
  sorted := by
    refine List.pairwise_append.mpr ⟨sound.sorted, List.pairwise_singleton .., ?_⟩
    intro event queued newest mem
    rw [List.mem_singleton.mp mem]
    exact Nat.lt_succ_of_le (sound.numbered event queued)
  numbered event queued := by
    rcases List.mem_append.mp queued with queued | newest
    · exact Nat.le_succ_of_le (sound.numbered event queued)
    · rw [List.mem_singleton.mp newest]
      exact Nat.le_refl _
  current tag id now := by
    obtain ⟨known, behind⟩ := sound.current tag id now
    refine ⟨Nat.le_succ_of_le known, fun event queued => ?_⟩
    rcases List.mem_append.mp queued with queued | newest
    · exact behind event queued
    · rw [List.mem_singleton.mp newest]
      exact Nat.lt_succ_of_le known
  lone := by
    rw [Queue.enqueue, List.countP_append, List.countP_singleton]
    have lone := sound.lone
    -- A repaint is let in only where none waits.
    split
    · rename_i paint
      have fresh := fresh (beq_iff_eq.mp paint)
      have none : q.events.countP (·.tag == .paint) = 0 :=
        List.countP_eq_zero.mpr fun event queued => by simpa using fresh event queued
      omega
    · omega
  closed isClosed := absurd (isOpen.symm.trans isClosed) Bool.false_ne_true

theorem post (sound : q.Sound) (kind : EventKind Work) : (q.post kind).2.Sound := by
  rcases q.post_cases kind with ⟨-, eq⟩ | ⟨-, -, -, eq⟩ | ⟨isOpen, fresh, eq⟩
  · rw [eq]
    exact sound
  · rw [eq]
    exact sound
  · rw [eq]
    exact sound.enqueue isOpen fresh

/-- The first event becomes the current one, and all others are behind it. -/
theorem next (sound : q.Sound) (first : q.next? = some (event, q')) : q'.Sound := by
  obtain ⟨isOpen, rest, events, rfl⟩ := next?_eq_some first
  obtain ⟨-, sorted, numbered, -, lone, -⟩ := id sound
  rw [events] at sorted numbered lone
  have counted (tag : EventTag) :
      (q.leave event.tag).queued.count tag = rest.countP (·.tag == tag) := by
    rw [count_leave, sound.counted, events, List.countP_cons]
    simp only [beq_iff_eq]
    omega
  obtain ⟨behind, sorted⟩ := List.pairwise_cons.mp sorted
  obtain ⟨known, numbered⟩ := List.forall_mem_cons.mp numbered
  refine ⟨counted, sorted, numbered, ?_, ?_, ?_⟩
  · rintro tag id ⟨⟩
    exact ⟨known, behind⟩
  · exact Nat.le_trans (List.sublist_cons_self event rest).countP_le lone
  · exact fun isClosed => absurd (isOpen.symm.trans isClosed) Bool.false_ne_true

theorem finish (sound : q.Sound) (tag : EventTag) : (q.finish tag).Sound :=
  ⟨sound.counted, sound.sorted, sound.numbered, nofun, sound.lone, sound.closed⟩

theorem remove (sound : q.Sound) (p : Event Work → Bool) : (q.remove p).2.Sound := by
  obtain ⟨queued, eq⟩ := q.remove_snd p
  have counted (tag : EventTag) : (q.remove p).2.queued.count tag =
      (q.remove p).2.events.countP (·.tag == tag) := by
    have all := (List.filter_append_perm p q.events).countP_eq (·.tag == tag)
    rw [List.countP_append, ← sound.counted] at all
    rw [queued_remove, count_leaveAll, eq]
    simp only
    omega
  rw [eq] at counted ⊢
  refine sound.sublist List.filter_sublist counted rfl rfl fun isClosed => ?_
  rw [sound.closed isClosed]
  rfl

theorem flush (sound : q.Sound) (tag : EventTag) (reentrant : Bool) (thread : Nat) :
    (q.flush tag reentrant thread).2.Sound := by
  rcases q.flush_cases tag reentrant thread with ⟨-, eq⟩ | ⟨-, -, eq⟩ |
    ⟨-, -, before, event, after, events, rfl, -, eq⟩ | ⟨-, -, -, eq⟩
  · rw [eq]
    exact sound
  · rw [eq]
    exact sound
  · rw [eq]
    have kept : (before ++ after).Sublist q.events := by
      rw [events]
      exact (List.sublist_cons_self event after).append_left before
    refine sound.sublist kept (fun tag => ?_) rfl rfl fun isClosed => ?_
    · rw [count_leave, sound.counted, events]
      simp only [List.countP_append, List.countP_cons, beq_iff_eq]
      omega
    · exact List.sublist_nil.mp (sound.closed isClosed ▸ kept)
  · rw [eq]
    exact sound

theorem finishInline (sound : q.Sound) (tag : EventTag) (thread : Nat) :
    (q.finishInline tag thread).Sound :=
  ⟨sound.counted, sound.sorted, sound.numbered, sound.current, sound.lone, sound.closed⟩

theorem close (sound : q.Sound) : q.close.2.Sound := by
  rcases q.close_cases with ⟨-, eq⟩ | ⟨-, eq⟩
  · rw [eq]
    exact sound
  · rw [eq]
    exact sound.sublist (List.nil_sublist _) (by simp) rfl rfl fun _ => rfl

/-- A closed queue lets nothing in and nothing out. -/
theorem shut (sound : q.Sound) (isClosed : q.closed = true) :
    q.events = [] ∧ (∀ tag, q.queued.count tag = 0) ∧ (∀ kind, q.post kind = (.closed, q)) ∧
    q.next? = none ∧ ∀ tag reentrant thread, (q.flush tag reentrant thread).1 ≠ .take := by
  have empty := sound.closed isClosed
  refine ⟨empty, fun tag => ?_, fun kind => ?_, ?_, fun tag reentrant thread taken => ?_⟩
  · rw [sound.counted, empty]
    rfl
  · rw [Queue.post, if_pos isClosed]
  · rw [next?, if_pos isClosed]
  · obtain ⟨event, found⟩ := exists_of_flush_take (Prod.ext taken rfl)
    rw [empty] at found
    cases found

end Sound

/-- Of the queued events exactly those are removed that are meant, and the others keep their
order. -/
theorem remove_exact (q : Queue Work) (p : Event Work → Bool) :
    (q.remove p).2.events = (q.events.filter fun event => !p event) ∧
    (q.remove p).2.queued = (q.leaveAll (q.events.filter p)).queued ∧
    ((q.remove p).1 = true ↔ ∃ event ∈ q.events, p event = true) := by
  obtain ⟨queued, eq⟩ := q.remove_snd p
  exact ⟨by rw [eq], q.queued_remove p, by simp [remove]⟩

end Queue

namespace Traffic

variable {t t' : Traffic Work} {operation : Operation Work}

theorem flush_queue (t : Traffic Work) (tag : EventTag) (reentrant : Bool) (thread : Nat) :
    (t.flush tag reentrant thread).queue = (t.queue.flush tag reentrant thread).2 := by
  unfold flush
  split <;> simp_all

theorem look_queue (t : Traffic Work) (i : Nat) (waiter : Waiter) :
    (t.look i waiter).queue = t.queue := by
  unfold look
  split <;> rfl

theorem step_sound (made : t.step operation = some t') (sound : t.queue.Sound) :
    t'.queue.Sound := by
  cases operation with
  | post kind =>
    cases made
    rw [post_queue]
    exact sound.post kind
  | pop thread =>
    obtain ⟨⟨event, queue⟩, first, rfl⟩ := Option.map_eq_some_iff.mp made
    exact sound.next first
  | finish thread =>
    obtain ⟨run, -, rfl⟩ := Option.map_eq_some_iff.mp made
    exact sound.finish run.event.tag
  | remove p =>
    cases made
    exact sound.remove p
  | flush tag reentrant thread =>
    cases made
    rw [flush_queue]
    exact sound.flush tag reentrant thread
  | release i =>
    obtain ⟨run, -, rfl⟩ := Option.map_eq_some_iff.mp made
    exact sound.finishInline run.event.tag run.thread
  | close =>
    cases made
    rw [close_queue]
    exact sound.close
  | signal =>
    simp only [step] at made
    split at made
    · cases made
    · cases made
      exact sound
  | wake i =>
    obtain ⟨waiter, -, rfl⟩ := Option.map_eq_some_iff.mp made
    exact sound
  | look i =>
    obtain ⟨waiter, -, made⟩ := Option.bind_eq_some_iff.mp made
    split at made
    · cases made
    · cases made
      rw [look_queue]
      exact sound

theorem Leads.sound {rule : Discipline Work} (leads : Leads rule t t') (sound : t.queue.Sound) :
    t'.queue.Sound := by
  induction leads with
  | refl => exact sound
  | step _ _ made ih => exact step_sound made ih

/-- Once the queue is closed it is closed for good, and no event comes or goes. -/
theorem Effect.shut (effect : t.Effect operation t') (sound : t.queue.Sound)
    (isClosed : t.queue.closed = true) : t'.queue.closed = true ∧
      ∃ late, t'.log = late ++ t.log ∧
        late.filterMap Deed.admitted? = [] ∧ late.filterMap Deed.left? = [] := by
  have empty := sound.closed isClosed
  cases effect with
  | still | wait | signal | wake | sleep => exact ⟨isClosed, [], rfl, rfl, rfl⟩
  | enqueue isOpen | pop isOpen | close isOpen =>
    exact absurd (isOpen.symm.trans isClosed) Bool.false_ne_true
  | finish | release | answer => exact ⟨isClosed, [_], rfl, rfl, rfl⟩
  | take idle events => simp [empty] at events
  | remove => exact ⟨isClosed, _, rfl, by simp, by simp [empty]⟩

theorem Leads.shut {rule : Discipline Work} (leads : Leads rule t t') (sound : t.queue.Sound)
    (isClosed : t.queue.closed = true) : t'.queue.closed = true ∧
      ∃ late, t'.log = late ++ t.log ∧
        late.filterMap Deed.admitted? = [] ∧ late.filterMap Deed.left? = [] := by
  induction leads with
  | refl => exact ⟨isClosed, [], rfl, rfl, rfl⟩
  | step before _ made ih =>
    obtain ⟨isClosed, early, log, admitted, left⟩ := ih
    obtain ⟨isClosed, late, log', admitted', left'⟩ :=
      (step_effect made).shut (before.sound sound) isClosed
    refine ⟨isClosed, late ++ early, by rw [log', log, List.append_assoc], ?_, ?_⟩
    · rw [List.filterMap_append, admitted', admitted]
      rfl
    · rw [List.filterMap_append, left', left]
      rfl

/-- Whatever the threads do: of each tag as many events are counted as are queued, so that no event
is counted out that was not counted in; the queued events are in the order of their ids, behind the
current one and none above the last id; and no two repaints wait. A removal takes out what is meant
and tells whether that was anything. A closed queue stays closed and empty. -/
theorem bookkeeping_exact (reaches : Reaches Discipline.free t) :
    (∀ tag, t.queue.queued.count tag = t.queue.events.countP (·.tag == tag)) ∧
    (∀ before event after, (before ++ event :: after).Sublist t.queue.events →
      0 < (t.queue.leaveAll before).queued.count event.tag) ∧
    t.queue.events.Pairwise (fun a b => a.id < b.id) ∧
    (∀ event ∈ t.queue.events, event.id ≤ t.queue.lastId) ∧
    (∀ tag id, t.queue.current = some (tag, id) → ∀ event ∈ t.queue.events, id < event.id) ∧
    t.queue.events.countP (·.tag == .paint) ≤ 1 ∧
    (∀ p, (t.queue.remove p).2.events = (t.queue.events.filter fun event => !p event) ∧
      (t.queue.remove p).2.queued = (t.queue.leaveAll (t.queue.events.filter p)).queued ∧
      ((t.queue.remove p).1 = true ↔ ∃ event ∈ t.queue.events, p event = true)) ∧
    (t.queue.closed = true → ∀ t', Leads Discipline.free t t' →
      t'.queue.closed = true ∧ t'.queue.events = [] ∧ (∀ tag, t'.queue.queued.count tag = 0) ∧
      (∀ kind, t'.queue.post kind = (.closed, t'.queue)) ∧ t'.queue.next? = none ∧
      (∀ tag reentrant thread, (t'.queue.flush tag reentrant thread).1 ≠ .take) ∧
      ∃ late, t'.log = late ++ t.log ∧
        late.filterMap Deed.admitted? = [] ∧ late.filterMap Deed.left? = []) := by
  have sound : t.queue.Sound := reaches.sound Queue.sound_empty
  refine ⟨sound.counted, fun _ _ _ => sound.count_pos, sound.sorted, sound.numbered,
    fun tag id now => (sound.current tag id now).2, sound.lone, t.queue.remove_exact, ?_⟩
  intro isClosed t' leads
  obtain ⟨stays, quiet⟩ := leads.shut sound isClosed
  obtain ⟨empty, counts, refuses, stops, keeps⟩ := (leads.sound sound).shut stays
  exact ⟨stays, empty, counts, refuses, stops, keeps, quiet⟩

/-- A repaint is handled, a notice was removed, and two keys and a repaint wait. -/
def twoKeysWait : List (Operation Unit) :=
  [.post .paint, .post (.key .pressed 53), .post .showNotify, .post (.key .released 53), .pop 0,
    .post .paint, .remove (·.tag == .showNotify)]

theorem twoKeysWait_end : (({} : Traffic Unit).run Discipline.free twoKeysWait).map
      (fun t => (t.queue.events, t.queue.current, t.queue.closed)) =
    some ([⟨2, .key .pressed 53⟩, ⟨4, .key .released 53⟩, ⟨5, .paint⟩], some (.paint, 1), false) :=
  rfl

theorem bookkeeping_exact_twoKeysWait : ∃ t : Traffic Unit, Reaches Discipline.free t ∧
    t.queue.queued.count .key = 2 ∧ t.queue.queued.count .showNotify = 0 ∧
    (∀ event ∈ t.queue.events, 1 < event.id) ∧ (t.queue.remove (·.tag == .key)).1 = true ∧
    t.close.queue.closed = true ∧
    ∀ t', Leads Discipline.free t.close t' →
      t'.queue.events = [] ∧ t'.queue.post .paint = (.closed, t'.queue) := by
  obtain ⟨t, made, ends⟩ := Option.map_eq_some_iff.mp twoKeysWait_end
  simp only [Prod.mk.injEq] at ends
  obtain ⟨events, current, isOpen⟩ := ends
  have reaches : Reaches Discipline.free t := leads_run made
  obtain ⟨counted, -, -, -, behind, -, removes, -⟩ := bookkeeping_exact reaches
  have isClosed : t.close.queue.closed = true := by
    rw [close_queue, Queue.close, isOpen]
    rfl
  have closes : Reaches Discipline.free t.close := by
    have made : t.step .close = some t.close := rfl
    exact reaches.step rfl made
  refine ⟨t, reaches, ?_, ?_, behind .paint 1 current, ?_, isClosed, fun t' leads => ?_⟩
  · rw [counted, events]
    rfl
  · rw [counted, events]
    rfl
  · exact (removes _).2.2.mpr ⟨⟨2, .key .pressed 53⟩, by simp [events], rfl⟩
  · obtain ⟨-, empty, -, refuses, -⟩ := (bookkeeping_exact closes).2.2.2.2.2.2.2 isClosed t' leads
    exact ⟨empty, refuses .paint⟩

end Traffic

/-- The same holds of the queue that a session leaves behind, whatever its handlers did. -/
theorem Host.sound_queue {σ : Type} {host : Host σ} (obeys : host.Obeys Carries) (stage : σ)
    (rules : List Rule) (depth : Nat) (steps : List Step) :
    ((steps.mapM (host.step depth)).run { stage, rules }).2.queue.Sound := by
  obtain ⟨t, reaches, -, -, queue⟩ := session_reaches_queue obeys stage rules depth steps
  rw [← queue]
  exact reaches.sound Queue.sound_empty

end Handset
