import Handset.Proofs.Traffic
import Handset.Queue.Cases

/-! What an operation on a queue does. Each operation has one of a few effects, and what holds of
every traffic that operations reach is proved effect by effect. -/

namespace Handset.Traffic

variable {Work : Type}

/-- What an operation can do. In each case all that is not named stays as it was. -/
inductive Effect (t : Traffic Work) : Operation Work → Traffic Work → Prop
  /-- A post that is refused or merged, a flush with nothing to do, a queue closed before. -/
  | still {operation : Operation Work} : Effect t operation t
  | enqueue {kind : EventKind Work} (isOpen : t.queue.closed = false)
      (fresh : kind.tag = .paint → ∀ event ∈ t.queue.events, event.tag ≠ .paint) :
      Effect t (.post kind) { t with
        queue := t.queue.enqueue kind, log := .admitted ⟨t.queue.lastId + 1, kind⟩ :: t.log }
  | pop {thread : Nat} {event : Event Work} {rest : List (Event Work)}
      (isOpen : t.queue.closed = false) (events : t.queue.events = event :: rest) :
      Effect t (.pop thread) { t with
        queue := { t.queue.leave event.tag with
          events := rest, current := some (event.tag, event.id) }
        inTurn := ⟨event, thread⟩ :: t.inTurn
        log := .left .popped event :: t.log }
  | finish {before after : List (Run Work)} {run : Run Work}
      (running : t.inTurn = before ++ run :: after)
      (newest : ∀ other ∈ before, other.thread ≠ run.thread) :
      Effect t (.finish run.thread) (t.finish run (before ++ after))
  | remove {p : Event Work → Bool} {queued : Tally} :
      Effect t (.remove p) { t with
        queue := { t.queue with events := t.queue.events.filter fun event => !p event, queued }
        log := departures .removed (t.queue.events.filter p) ++ t.log }
  | wait {tag : EventTag} {thread : Nat} (busy : t.queue.inProgress tag = true) :
      Effect t (.flush tag false thread) { t with
        waiters := t.waiters ++
          [{ tag, seen := t.queue.completed.count tag, since := t.log.length }] }
  | take {thread : Nat} {event : Event Work} {before after : List (Event Work)}
      (idle : t.queue.inProgress event.tag = false)
      (events : t.queue.events = before ++ event :: after) :
      Effect t (.flush event.tag false thread) { t with
        queue := { t.queue.leave event.tag with
          events := before ++ after
          inlineRuns := t.queue.inlineRuns ++ [(event.tag, thread)] }
        inPlace := t.inPlace ++ [⟨event, thread⟩]
        log := .left .taken event :: t.log }
  | release {before after : List (Run Work)} {run : Run Work}
      (running : t.inPlace = before ++ run :: after) :
      Effect t (.release before.length) (t.release run (before ++ after))
  | close (isOpen : t.queue.closed = false) :
      Effect t .close { t with
        queue := { t.queue with events := [], queued := {}, closed := true }
        signals := t.signals + 1
        log := departures .dropped t.queue.events ++ t.log }
  | signal (due : 0 < t.signals) :
      Effect t .signal { t with
        signals := t.signals - 1, waiters := t.waiters.map Waiter.wake }
  | wake {before after : List Waiter} {waiter : Waiter}
      (waiting : t.waiters = before ++ waiter :: after) :
      Effect t (.wake before.length) { t with waiters := before ++ waiter.wake :: after }
  | sleep {before after : List Waiter} {waiter : Waiter}
      (waiting : t.waiters = before ++ waiter :: after) (waits : waiter.waits t.queue = true) :
      Effect t (.look before.length) { t with
        waiters := before ++ { waiter with asleep := true } :: after }
  | answer {before after : List Waiter} {waiter : Waiter}
      (waiting : t.waiters = before ++ waiter :: after) (done : waiter.waits t.queue = false) :
      Effect t (.look before.length) { t with
        waiters := before ++ after, log := .answered waiter.tag waiter.since :: t.log }

variable {t t' : Traffic Work} {operation : Operation Work}

theorem effect_post (t : Traffic Work) (kind : EventKind Work) :
    t.Effect (.post kind) (t.post kind) := by
  unfold post
  rcases t.queue.post_cases kind with ⟨-, eq⟩ | ⟨-, -, -, eq⟩ | ⟨isOpen, fresh, eq⟩
  · rw [eq]
    exact .still
  · rw [eq]
    exact .still
  · rw [eq]
    exact .enqueue isOpen fresh

theorem effect_flush (t : Traffic Work) (tag : EventTag) (reentrant : Bool) (thread : Nat) :
    t.Effect (.flush tag reentrant thread) (t.flush tag reentrant thread) := by
  unfold flush
  rcases t.queue.flush_cases tag reentrant thread with ⟨-, eq⟩ | ⟨rfl, busy, eq⟩ |
    ⟨rfl, idle, before, event, after, events, rfl, found, eq⟩ | ⟨-, -, -, eq⟩
  · rw [eq]
    exact .still
  · rw [eq]
    exact .wait busy
  · rw [eq, found]
    exact .take idle events
  · rw [eq]
    exact .still

theorem effect_close (t : Traffic Work) : t.Effect .close t.close := by
  unfold close
  rcases t.queue.close_cases with ⟨-, eq⟩ | ⟨isOpen, eq⟩
  · rw [eq]
    exact .still
  · rw [eq]
    exact .close isOpen

theorem effect_finish {thread : Nat} {run : Run Work}
    (found : t.inTurn.find? (·.thread == thread) = some run) :
    t.Effect (.finish thread) (t.finish run (t.inTurn.eraseP (·.thread == thread))) := by
  obtain ⟨own, before, after, running, newest⟩ := List.find?_eq_some_iff_append.mp found
  have newest : ∀ other ∈ before, ¬ (other.thread == thread) = true := by simpa using newest
  have rest : t.inTurn.eraseP (·.thread == thread) = before ++ after := by
    rw [running, List.eraseP_append_right _ newest, List.eraseP_cons, own]
    rfl
  rw [rest]
  obtain rfl := beq_iff_eq.mp own
  exact .finish running (by simpa using newest)

theorem exists_split {α : Type} {l : List α} {i : Nat} {a : α} (found : l[i]? = some a) :
    ∃ before after, l = before ++ a :: after ∧ before.length = i := by
  obtain ⟨lt, rfl⟩ := List.getElem?_eq_some_iff.mp found
  exact ⟨l.take i, l.drop (i + 1), by simp, by simp; omega⟩

/-- What is left of a list when one entry is gone. -/
theorem sublist_split {α : Type} (before : List α) (a : α) (after : List α) :
    (before ++ after).Sublist (before ++ a :: after) :=
  (List.sublist_cons_self a after).append_left before

theorem effect_look {i : Nat} {waiter : Waiter} (found : t.waiters[i]? = some waiter) :
    t.Effect (.look i) (t.look i waiter) := by
  obtain ⟨before, after, waiting, rfl⟩ := exists_split found
  unfold look
  cases waits : waiter.waits t.queue with
  | true =>
    have rest : t.waiters.set before.length { waiter with asleep := true } =
        before ++ { waiter with asleep := true } :: after := by simp [waiting]
    rw [if_pos rfl, rest]
    exact .sleep waiting waits
  | false =>
    have rest : t.waiters.eraseIdx before.length = before ++ after := by
      simp [waiting, List.eraseIdx_append_of_length_le]
    rw [if_neg (by simp), rest]
    exact .answer waiting waits

/-- Every operation has one of the effects. -/
theorem step_effect (made : t.step operation = some t') : t.Effect operation t' := by
  cases operation with
  | post kind =>
    cases made
    exact effect_post t kind
  | pop thread =>
    obtain ⟨⟨event, queue⟩, first, rfl⟩ := Option.map_eq_some_iff.mp made
    obtain ⟨isOpen, rest, events, rfl⟩ := Queue.next?_eq_some first
    exact .pop isOpen events
  | finish thread =>
    obtain ⟨run, found, rfl⟩ := Option.map_eq_some_iff.mp made
    exact effect_finish found
  | remove p =>
    cases made
    obtain ⟨queued, eq⟩ := t.queue.remove_snd p
    rw [eq]
    exact .remove
  | flush tag reentrant thread =>
    cases made
    exact effect_flush t tag reentrant thread
  | release i =>
    obtain ⟨run, found, rfl⟩ := Option.map_eq_some_iff.mp made
    obtain ⟨before, after, running, rfl⟩ := exists_split found
    have rest : t.inPlace.eraseIdx before.length = before ++ after := by
      simp [running, List.eraseIdx_append_of_length_le]
    rw [rest]
    exact .release running
  | close =>
    cases made
    exact effect_close t
  | signal =>
    simp only [step] at made
    split at made
    · cases made
    · rename_i due
      cases made
      exact .signal (Nat.pos_of_ne_zero due)
  | wake i =>
    obtain ⟨waiter, found, rfl⟩ := Option.map_eq_some_iff.mp made
    obtain ⟨before, after, waiting, rfl⟩ := exists_split found
    have rest : t.waiters.set before.length waiter.wake = before ++ waiter.wake :: after := by
      simp [waiting]
    rw [rest]
    exact .wake waiting
  | look i =>
    obtain ⟨waiter, found, made⟩ := Option.bind_eq_some_iff.mp made
    split at made
    · cases made
    · cases made
      exact effect_look found

/-- What every effect preserves, in a discipline, holds of all that operations reach. -/
theorem Leads.invariant {P : Traffic Work → Prop} {rule : Discipline Work} (start : P t)
    (effect : ∀ {t operation t'}, P t → rule t operation → t.Effect operation t' → P t')
    (leads : Leads rule t t') : P t' := by
  induction leads with
  | refl => exact start
  | step _ allowed made ih => exact effect ih allowed (step_effect made)

/-- What is kept of operations is never taken back, and it tells of each event that leaves. -/
theorem Effect.kept (effect : t.Effect operation t') :
    ∃ late, t'.log = late ++ t.log ∧ ∀ event ∈ t.queue.events,
      event ∈ t'.queue.events ∨ ∃ exit, .left exit event ∈ late := by
  cases effect with
  | still | wait | signal | wake | sleep => exact ⟨[], rfl, fun _ queued => .inl queued⟩
  | finish | release | answer => exact ⟨[_], rfl, fun _ queued => .inl queued⟩
  | enqueue => exact ⟨[_], rfl, fun _ queued => .inl (List.mem_append_left _ queued)⟩
  | pop isOpen events =>
    refine ⟨[_], rfl, fun other queued => ?_⟩
    rw [events] at queued
    rcases List.mem_cons.mp queued with rfl | behind
    · exact .inr ⟨_, List.mem_cons_self⟩
    · exact .inl behind
  | take idle events =>
    refine ⟨[_], rfl, fun other queued => ?_⟩
    rw [events] at queued
    rcases List.mem_append.mp queued with before | behind
    · exact .inl (List.mem_append_left _ before)
    · rcases List.mem_cons.mp behind with rfl | behind
      · exact .inr ⟨_, List.mem_cons_self⟩
      · exact .inl (List.mem_append_right _ behind)
  | @remove p =>
    refine ⟨_, rfl, fun event queued => ?_⟩
    cases chosen : p event with
    | true => exact .inr ⟨_, List.mem_map_of_mem (List.mem_filter.mpr ⟨queued, chosen⟩)⟩
    | false => exact .inl (List.mem_filter.mpr ⟨queued, by simp [chosen]⟩)
  | close => exact ⟨_, rfl, fun _ queued => .inr ⟨_, List.mem_map_of_mem queued⟩⟩

theorem Leads.kept {rule : Discipline Work} (leads : Leads rule t t') :
    ∃ late, t'.log = late ++ t.log ∧ ∀ event ∈ t.queue.events,
      event ∈ t'.queue.events ∨ ∃ exit, .left exit event ∈ late := by
  induction leads with
  | refl => exact ⟨[], rfl, fun _ queued => .inl queued⟩
  | step _ _ made ih =>
    obtain ⟨early, log, first⟩ := ih
    obtain ⟨late, log', second⟩ := (step_effect made).kept
    refine ⟨late ++ early, by rw [log', log, List.append_assoc], fun event queued => ?_⟩
    rcases first event queued with queued | ⟨exit, left⟩
    · rcases second event queued with queued | ⟨exit, left⟩
      · exact .inl queued
      · exact .inr ⟨exit, List.mem_append_left _ left⟩
    · exact .inr ⟨exit, List.mem_append_right _ left⟩

end Handset.Traffic
