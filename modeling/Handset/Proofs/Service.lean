import Handset.Proofs.Coalescing
import Handset.Proofs.Flushing

/-! Threads that ask for a repaint and then make sure that one is over. A thread that waits goes on
after whichever run ends first. So it gets a run that was begun after it asked, unless an older one
was still at work when it came to wait. -/

namespace Handset

variable {Work : Type}

theorem since_append (late early : List (Deed Work)) :
    since (late ++ early) early.length = late := by
  simp [since]

theorem mem_since_of_suffix {after before : List (Deed Work)} {deed last : Deed Work} {n : Nat}
    (mem : deed ∈ since before n) : deed ∈ since (after ++ last :: before) n := by
  cases Nat.le_total n before.length with
  | inl le =>
    have split : after ++ last :: before = (after ++ [last]) ++ before := by simp
    have length : ((after ++ [last]) ++ before).length - n =
        (after ++ [last]).length + (before.length - n) := by
      rw [List.length_append]
      omega
    rw [split, since, length, List.take_length_add_append]
    exact List.mem_append_right _ mem
  | inr le =>
    rw [since, Nat.sub_eq_zero_of_le le] at mem
    cases mem

/-- A run of the event has ended, in turn or in place. -/
def Ended (log : List (Deed Work)) (event : Event Work) : Prop :=
  .finished event ∈ log ∨ .released event ∈ log

/-- The event was taken out to be run, in turn or in place, and its run has ended. -/
def Completed (log : List (Deed Work)) (event : Event Work) : Prop :=
  (.left .popped event ∈ log ∧ .finished event ∈ log) ∨
  (.left .taken event ∈ log ∧ .released event ∈ log)

/-- The deed is the end of a run of the event, if the event went out that way. -/
inductive Concludes (event : Event Work) : Exit → Deed Work → Prop
  | inTurn : Concludes event .popped (.finished event)
  | inPlace : Concludes event .taken (.released event)

section Concludes

variable {log log' : List (Deed Work)} {event : Event Work} {exit : Exit} {deed : Deed Work}

theorem Concludes.ended (concludes : Concludes event exit deed) (mem : deed ∈ log) :
    Ended log event := by
  cases concludes with
  | inTurn => exact .inl mem
  | inPlace => exact .inr mem

theorem completed_iff : Completed log event ↔
    ∃ exit deed, Concludes event exit deed ∧ .left exit event ∈ log ∧ deed ∈ log := by
  constructor
  · intro completed
    cases completed with
    | inl inTurn => exact ⟨_, _, .inTurn, inTurn⟩
    | inr inPlace => exact ⟨_, _, .inPlace, inPlace⟩
  · intro completed
    obtain ⟨exit, deed, concludes, completed⟩ := completed
    cases concludes with
    | inTurn => exact .inl completed
    | inPlace => exact .inr completed

theorem Completed.mono (completed : Completed log event) (subset : log ⊆ log') :
    Completed log' event := by
  obtain ⟨exit, deed, concludes, left, mem⟩ := completed_iff.mp completed
  exact completed_iff.mpr ⟨exit, deed, concludes, subset left, subset mem⟩

theorem Deed.concludes_of_ends {tag : EventTag} (ends : deed.ends tag = true) :
    ∃ event exit, event.tag = tag ∧ Concludes event exit deed := by
  cases deed with
  | finished event =>
    exact ⟨event, _, by simpa [Deed.ends, Deed.finishes, Deed.releases] using ends, .inTurn⟩
  | released event =>
    exact ⟨event, _, by simpa [Deed.ends, Deed.finishes, Deed.releases] using ends, .inPlace⟩
  | admitted | left | answered => cases ends

end Concludes

/-- What leaves the queue one way leaves it once. -/
theorem leftFor_sublist (exit : Exit) (log : List (Deed Work)) :
    (log.filterMap (Deed.leftFor? exit)).Sublist ((log.filterMap Deed.left?).map Prod.fst) := by
  induction log with
  | nil => exact .slnil
  | cons deed log ih =>
    cases deed with
    | left exit' event =>
      simp only [List.filterMap_cons, Deed.leftFor?, Deed.left?, List.map_cons]
      split
      · exact ih.cons event
      · rename_i same
        split at same <;> cases same
        exact ih.cons_cons event
    | admitted | finished | released | answered => exact ih

namespace Traffic

variable {t t' asked flushed back : Traffic Work} {event : Event Work} {exit : Exit}
  {deed : Deed Work} {late early : List (Deed Work)}

/-- A thread handles the event or runs it in place. -/
def Running (t : Traffic Work) (event : Event Work) : Prop :=
  ∃ run ∈ t.working, run.event = event

theorem Handles.left_of_concludes (handles : t.Handles) (concludes : Concludes event exit deed)
    (mem : deed ∈ t.log) : .left exit event ∈ t.log := by
  cases concludes with
  | inTurn => exact handles.popped_of_finished mem
  | inPlace => exact handles.taken_of_released mem

/-- A run that was begun is at work, or has come to its end. -/
theorem Handles.running_or_concluded (handles : t.Handles) (concludes : Concludes event exit deed)
    (left : .left exit event ∈ t.log) : t.Running event ∨ deed ∈ t.log := by
  cases concludes with
  | inTurn =>
    cases List.mem_append.mp (handles.inTurn.mem_iff.mp (mem_leftFor.mpr left)) with
    | inl working =>
      obtain ⟨run, working, same⟩ := List.mem_map.mp working
      exact .inl ⟨run, List.mem_append_left _ working, same⟩
    | inr ended =>
      obtain ⟨deed, ended, same⟩ := List.mem_filterMap.mp ended
      cases deed <;> cases same
      exact .inr ended
  | inPlace =>
    cases List.mem_append.mp (handles.inPlace.mem_iff.mp (mem_leftFor.mpr left)) with
    | inl working =>
      obtain ⟨run, working, same⟩ := List.mem_map.mp working
      exact .inl ⟨run, List.mem_append_right _ working, same⟩
    | inr ended =>
      obtain ⟨deed, ended, same⟩ := List.mem_filterMap.mp ended
      cases deed <;> cases same
      exact .inr ended

theorem Handles.running_or_over (handles : t.Handles) (left : .left exit event ∈ t.log)
    (run : exit = .popped ∨ exit = .taken) : t.Running event ∨ Completed t.log event := by
  obtain ⟨deed, concludes⟩ : ∃ deed : Deed Work, Concludes event exit deed := by
    cases run with
    | inl popped => exact popped ▸ ⟨_, .inTurn⟩
    | inr taken => exact taken ▸ ⟨_, .inPlace⟩
  exact (handles.running_or_concluded concludes left).imp_right fun ended =>
    completed_iff.mpr ⟨exit, deed, concludes, left, ended⟩

/-- An event that still waited was begun and has ended since. -/
theorem Accounts.over_since (accounts : t.Accounts) (handles : t.Handles)
    (queued : event ∈ t.queue.events) (completed : Completed (late ++ t.log) event) :
    Completed late event := by
  have waits (exit : Exit) : .left exit event ∉ t.log :=
    fun left => accounts.id_ne_of_left queued left rfl
  obtain ⟨exit, deed, concludes, left, mem⟩ := completed_iff.mp completed
  refine completed_iff.mpr ⟨exit, deed, concludes, ?_, ?_⟩
  · exact (List.mem_append.mp left).resolve_right (waits exit)
  · exact (List.mem_append.mp mem).resolve_right fun ended =>
      waits exit (handles.left_of_concludes concludes ended)

theorem Accounts.nodup_leftFor (accounts : t.Accounts) (exit : Exit) :
    (t.log.filterMap (Deed.leftFor? exit)).Nodup := by
  have apart : (t.whereabouts.map Prod.fst).Nodup :=
    List.pairwise_map.mpr ((List.pairwise_map.mp accounts.nodup).imp fun ne same =>
      ne (congrArg Event.id same))
  rw [fst_whereabouts] at apart
  exact (List.nodup_append.mp apart).2.1.sublist (leftFor_sublist exit t.log)

theorem mem_once {α β : Type} {f : α → Option β} {a : α} {b : β} {early late : List α}
    (nodup : ((late ++ early).filterMap f).Nodup) (shown : f a = some b) (mem : a ∈ late) :
    a ∉ early := by
  intro again
  rw [List.filterMap_append] at nodup
  have first : b ∈ late.filterMap f := List.mem_filterMap.mpr ⟨a, mem, shown⟩
  have second : b ∈ early.filterMap f := List.mem_filterMap.mpr ⟨a, again, shown⟩
  exact (List.nodup_append.mp nodup).2.2 b first b second rfl

/-- What ends a run is done once. -/
theorem Handles.once (handles : t.Handles) (accounts : t.Accounts) (log : t.log = late ++ early)
    (concludes : Concludes event exit deed) (mem : deed ∈ late) : deed ∉ early := by
  cases concludes with
  | inTurn =>
    have once := handles.inTurn.nodup_iff.mp (accounts.nodup_leftFor .popped)
    rw [log] at once
    exact mem_once (List.nodup_append.mp once).2.1 rfl mem
  | inPlace =>
    have once := handles.inPlace.nodup_iff.mp (accounts.nodup_leftFor .taken)
    rw [log] at once
    exact mem_once (List.nodup_append.mp once).2.1 rfl mem

/-- A run that was begun and has yet to end is at work. -/
theorem Handles.running_of_concludes (handles : t.Handles) (accounts' : t'.Accounts)
    (handles' : t'.Handles) (log : t'.log = late ++ t.log)
    (concludes : Concludes event exit deed) (left : .left exit event ∈ t.log)
    (mem : deed ∈ late) : t.Running event :=
  (handles.running_or_concluded concludes left).resolve_right
    (handles'.once accounts' log concludes mem)

/-- The flush of a thread has come to its end: there was nothing to do, or the thread has waited, or
it has run an event in place. -/
inductive Answered (t : Traffic Work) (tag : EventTag) (thread : Nat) (t' : Traffic Work) : Prop
  | idle (outcome : (t.queue.flush tag false thread).1 = .idle)
  | waited {seen : Nat} (outcome : (t.queue.flush tag false thread).1 = .busy seen)
      (told : .answered tag t.log.length ∈ t'.log)
  | ran {event : Event Work} (outcome : (t.queue.flush tag false thread).1 = .take)
      (found : t.queue.events.find? (·.tag == tag) = some event)
      (ended : .released event ∈ t'.log)

/-- A thread asks for a repaint when the traffic is `asked`, flushes when it is `flushed` and goes
on when it is `back`. In between the others do as they like, but no repaint that waits is given
up. -/
structure Services (thread : Nat) (asked flushed back : Traffic Work) : Prop where
  reaches : Reaches Discipline.oneByOne asked
  isOpen : asked.queue.closed = false
  between : Leads Discipline.oneByOne (asked.post .paint) flushed
  meanwhile : Leads Discipline.oneByOne (flushed.flush .paint false thread) back
  kept : ∀ exit event, .left exit event ∈ since back.log (asked.post .paint).log.length →
    event.tag = .paint → exit = .popped ∨ exit = .taken
  answered : flushed.Answered .paint thread back

/-- An event that waited does so still, or it is at work, or its run has ended since. -/
theorem fate_since (accounts : t.Accounts) (handles : t.Handles) (handles' : t'.Handles)
    (leads : Leads Discipline.oneByOne t t') (log : t'.log = late ++ t.log)
    (queued : event ∈ t.queue.events)
    (kept : ∀ exit, .left exit event ∈ late → exit = .popped ∨ exit = .taken) :
    event ∈ t'.queue.events ∨ t'.Running event ∨ Completed late event := by
  obtain ⟨late', log', fate⟩ := leads.kept
  cases List.append_cancel_right (log.symm.trans log')
  cases fate event queued with
  | inl waits => exact .inl waits
  | inr gone =>
    obtain ⟨exit, left⟩ := gone
    have left' : .left exit event ∈ t'.log := by
      rw [log]
      exact List.mem_append_left _ left
    cases handles'.running_or_over left' (kept exit left) with
    | inl running => exact .inr (.inl running)
    | inr completed =>
      rw [log] at completed
      exact .inr (.inr (accounts.over_since handles queued completed))

/-- Of the repaints that were begun after the request, one is over. -/
def Served (asked back : Traffic Work) : Prop :=
  ∃ event, event.tag = .paint ∧ Completed (since back.log (asked.post .paint).log.length) event

namespace Services

variable {thread : Nat}

theorem asks (services : Services thread asked flushed back) :
    Reaches Discipline.oneByOne (asked.post .paint) := by
  have posts : asked.step (.post .paint) = some (asked.post .paint) := rfl
  exact services.reaches.step rfl posts

theorem flushes (services : Services thread asked flushed back) :
    Leads Discipline.oneByOne flushed back := by
  have flushes : flushed.step (.flush .paint false thread) =
      some (flushed.flush .paint false thread) := rfl
  exact (Leads.one rfl flushes).trans services.meanwhile

/-- The log at each moment, from the last one on. -/
theorem logs (services : Services thread asked flushed back) : ∃ late early,
    back.log = late ++ flushed.log ∧ flushed.log = early ++ (asked.post .paint).log ∧
    since back.log flushed.log.length = late ∧
    since back.log (asked.post .paint).log.length = late ++ early := by
  obtain ⟨early, first, -⟩ := services.between.kept
  obtain ⟨late, second, -⟩ := services.flushes.kept
  refine ⟨late, early, second, first, ?_, ?_⟩
  · rw [second, since_append]
  · rw [second, first, ← List.append_assoc, since_append]

/-- A repaint that waits for the request does so still, or it is at work, or the request is
served. -/
theorem request_fate (services : Services thread asked flushed back) :
    (∃ event ∈ (asked.post .paint).queue.events, event.tag = .paint ∧
      (event ∈ back.queue.events ∨ back.Running event)) ∨ asked.Served back := by
  have asks := services.asks
  have leads := services.between.trans services.flushes
  obtain ⟨late, early, second, first, -, all⟩ := services.logs
  obtain ⟨event, queued, paint⟩ := exists_queued_paint services.isOpen
  have kept := fun exit left => services.kept exit event (all ▸ left) paint
  have fate := fate_since (asks.accounts accounts_empty) (asks.handles handles_empty)
    ((asks.trans leads).handles handles_empty) leads
    (by rw [second, first, List.append_assoc]) queued kept
  cases fate with
  | inl waits => exact .inl ⟨event, queued, paint, .inl waits⟩
  | inr begun =>
    cases begun with
    | inl running => exact .inl ⟨event, queued, paint, .inr running⟩
    | inr completed => exact .inr ⟨event, paint, all ▸ completed⟩

/-- No repaint waits and none is at work, so the one that waited is over. -/
theorem served_of_idle (services : Services thread asked flushed back)
    (outcome : (flushed.queue.flush .paint false thread).1 = .idle) : asked.Served back := by
  have asks := services.asks
  have flushes := asks.trans services.between
  obtain ⟨late, early, second, first, -, all⟩ := services.logs
  obtain ⟨event, queued, paint⟩ := exists_queued_paint services.isOpen
  have kept := fun exit left =>
    services.kept exit event (all ▸ List.mem_append_right late left) paint
  have fate := fate_since (asks.accounts accounts_empty) (asks.handles handles_empty)
    (flushes.handles handles_empty) services.between first queued kept
  have registers := flushes.registers registers_empty
  have single := (flushes.serves registers_empty serves_empty).single
  rcases flushed.queue.flush_cases .paint false thread with ⟨no, -⟩ | ⟨-, -, eq⟩ |
    ⟨-, -, before, first, after, -, -, -, eq⟩ | ⟨-, idle, none, -⟩
  · cases no
  · rw [eq] at outcome
    cases outcome
  · rw [eq] at outcome
    cases outcome
  · cases fate with
    | inl waits => exact absurd paint (none event waits)
    | inr begun =>
      cases begun with
      | inl running =>
        obtain ⟨run, working, rfl⟩ := running
        have busy := (single.inProgress registers).mpr ⟨run, working, paint⟩
        cases idle.symm.trans busy
      | inr completed =>
        exact ⟨event, paint, all ▸ completed.mono (List.subset_append_right late early)⟩

/-- The thread has run a repaint itself, which it took out after it asked. -/
theorem served_of_ran (services : Services thread asked flushed back)
    (found : flushed.queue.events.find? (·.tag == .paint) = some event)
    (released : .released event ∈ back.log) : asked.Served back := by
  have flushes := services.asks.trans services.between
  have handles := (flushes.trans services.flushes).handles handles_empty
  obtain ⟨late, early, second, first, -, all⟩ := services.logs
  have completed : Completed back.log event := .inr ⟨handles.taken_of_released released, released⟩
  rw [second] at completed
  have completed := (flushes.accounts accounts_empty).over_since (flushes.handles handles_empty)
    (List.mem_of_find?_eq_some found) completed
  exact ⟨event, by simpa using List.find?_some found,
    all ▸ completed.mono (List.subset_append_left late early)⟩

/-- A repaint has ended while the thread waited. If it was begun before the thread asked, it was at
work then, and still when the thread came to wait. -/
theorem served_or_older (services : Services thread asked flushed back)
    (told : .answered .paint flushed.log.length ∈ back.log) : asked.Served back ∨
      ∃ event, event.tag = .paint ∧ asked.Running event ∧ flushed.Running event ∧
        Ended (since back.log flushed.log.length) event := by
  have asks := services.asks
  have flushes := asks.trans services.between
  have backs := flushes.trans services.flushes
  have accounts := backs.accounts accounts_empty
  have handles := backs.handles handles_empty
  obtain ⟨late, early, second, first, waited, all⟩ := services.logs
  obtain ⟨after, before, split⟩ := List.append_of_mem told
  obtain ⟨deed, mem, ends⟩ := (backs.serves registers_empty serves_empty).honest.at split
  have mem : deed ∈ late := by
    rw [← waited, split]
    exact mem_since_of_suffix mem
  have whole : back.log = (late ++ early) ++ (asked.post .paint).log := by
    rw [second, first, List.append_assoc]
  have same : (asked.post .paint).working = asked.working := by
    rw [working, working, post_inTurn, post_inPlace]
  obtain ⟨event, exit, paint, concludes⟩ := Deed.concludes_of_ends ends
  have left := handles.left_of_concludes concludes (second ▸ List.mem_append_left _ mem)
  have since := List.mem_append_left early mem
  rw [whole] at left
  rw [waited, Served, all]
  cases List.mem_append.mp left with
  | inl begun => exact .inl ⟨event, paint, completed_iff.mpr ⟨_, _, concludes, begun, since⟩⟩
  | inr begun =>
    have atFirst := (asks.handles handles_empty).running_of_concludes accounts handles whole
      concludes begun since
    have atLast := (flushes.handles handles_empty).running_of_concludes accounts handles second
      concludes (first ▸ List.mem_append_right early begun) mem
    rw [Running, same] at atFirst
    exact .inr ⟨event, paint, atFirst, atLast, concludes.ended mem⟩

end Services

/-- A thread that asks for a repaint and then flushes has, when it goes on, a repaint that was begun
after it asked and is over, unless it has waited for one that was at work already when it asked. In
that case the request is not lost: a repaint that stands for it waits or is at work. -/
theorem request_served {thread : Nat} (services : Services thread asked flushed back) :
    asked.Served back ∨
    (∃ event, event.tag = .paint ∧ asked.Running event ∧ flushed.Running event ∧
      Ended (since back.log flushed.log.length) event) ∧
    ∃ event ∈ (asked.post .paint).queue.events, event.tag = .paint ∧
      (event ∈ back.queue.events ∨ back.Running event) := by
  cases services.answered with
  | idle outcome => exact .inl (services.served_of_idle outcome)
  | ran outcome found released => exact .inl (services.served_of_ran found released)
  | waited outcome told =>
    cases services.served_or_older told with
    | inl served => exact .inl served
    | inr older =>
      cases services.request_fate with
      | inl waits => exact .inr ⟨older, waits⟩
      | inr served => exact .inl served

/-- The traffic at a request, at the flush that follows it and when the flush is over, as operations
lead there. -/
def follow (early between late : List (Operation Unit)) :
    Option (Traffic Unit × Traffic Unit × Traffic Unit) :=
  (({} : Traffic Unit).run Discipline.oneByOne early).bind fun asked =>
    ((asked.post .paint).run Discipline.oneByOne between).bind fun flushed =>
      ((flushed.flush .paint false 1).run Discipline.oneByOne late).map fun back =>
        (asked, flushed, back)

theorem services_follow {early between late : List (Operation Unit)}
    {asked flushed back : Traffic Unit}
    (followed : follow early between late = some (asked, flushed, back))
    (isOpen : asked.queue.closed = false)
    (kept : ∀ exit event, .left exit event ∈ since back.log (asked.post .paint).log.length →
      event.tag = .paint → exit = .popped ∨ exit = .taken)
    (answered : flushed.Answered .paint 1 back) : Services 1 asked flushed back := by
  obtain ⟨first, asks, followed⟩ := Option.bind_eq_some_iff.mp followed
  obtain ⟨second, flushes, followed⟩ := Option.bind_eq_some_iff.mp followed
  obtain ⟨third, backs, same⟩ := Option.map_eq_some_iff.mp followed
  cases same
  exact ⟨leads_run asks, isOpen, leads_run flushes, leads_run backs, kept, answered⟩

/-- A repaint is at work at the request and over before the flush, which finds the next one at
work. -/
theorem follow_next :
    (follow [.post .paint, .pop 0] [.finish 0, .pop 0] [.finish 0, .signal, .look 0]).map
        (fun (asked, flushed, back) => (asked.queue.closed, asked.working, flushed.working,
          (flushed.queue.flush .paint false 1).1, flushed.log.length, back.log,
          since back.log (asked.post .paint).log.length)) =
      some (false, [⟨⟨1, .paint⟩, 0⟩], [⟨⟨2, .paint⟩, 0⟩], .busy 1, 5,
        [.answered .paint 5, .finished ⟨2, .paint⟩, .left .popped ⟨2, .paint⟩,
          .finished ⟨1, .paint⟩, .admitted ⟨2, .paint⟩, .left .popped ⟨1, .paint⟩,
          .admitted ⟨1, .paint⟩],
        [.answered .paint 5, .finished ⟨2, .paint⟩, .left .popped ⟨2, .paint⟩,
          .finished ⟨1, .paint⟩]) :=
  rfl

theorem request_served_next : ∃ asked flushed back : Traffic Unit,
    Services 1 asked flushed back ∧ asked.Running ⟨1, .paint⟩ ∧ flushed.Running ⟨2, .paint⟩ ∧
    asked.Served back := by
  obtain ⟨⟨asked, flushed, back⟩, followed, ends⟩ := Option.map_eq_some_iff.mp follow_next
  simp only [Prod.mk.injEq] at ends
  obtain ⟨isOpen, working, working', busy, length, log, since⟩ := ends
  have told : .answered .paint flushed.log.length ∈ back.log := by simp [length, log]
  have services := services_follow followed isOpen (by simp [since]) (.waited busy told)
  refine ⟨asked, flushed, back, services, ⟨⟨⟨1, .paint⟩, 0⟩, by simp [working], rfl⟩,
    ⟨⟨⟨2, .paint⟩, 0⟩, by simp [working'], rfl⟩, ?_⟩
  -- The repaint at work at the request is not the one at work at the flush.
  refine (request_served services).resolve_right ?_
  rintro ⟨⟨event, -, ⟨run, first, rfl⟩, ⟨run', second, same⟩, -⟩, -⟩
  rw [working, List.mem_singleton] at first
  rw [working', List.mem_singleton] at second
  subst first second
  cases same

/-- The repaint at work at the request ends after the flush. -/
theorem follow_older :
    (follow [.post .paint, .pop 0] [] [.finish 0, .signal, .look 0]).map
        (fun (asked, flushed, back) => (asked.queue.closed,
          (flushed.queue.flush .paint false 1).1, flushed.log.length, back.log,
          since back.log (asked.post .paint).log.length)) =
      some (false, .busy 0, 3,
        [.answered .paint 3, .finished ⟨1, .paint⟩, .admitted ⟨2, .paint⟩,
          .left .popped ⟨1, .paint⟩, .admitted ⟨1, .paint⟩],
        [.answered .paint 3, .finished ⟨1, .paint⟩]) :=
  rfl

/-- A thread that waits for an older repaint goes on before its own is begun. -/
theorem request_unserved :
    ¬ ∀ asked flushed back : Traffic Unit, Services 1 asked flushed back → asked.Served back := by
  intro served
  obtain ⟨⟨asked, flushed, back⟩, followed, ends⟩ := Option.map_eq_some_iff.mp follow_older
  simp only [Prod.mk.injEq] at ends
  obtain ⟨isOpen, busy, length, log, since⟩ := ends
  have told : .answered .paint flushed.log.length ∈ back.log := by simp [length, log]
  have services := services_follow followed isOpen (by simp [since]) (.waited busy told)
  obtain ⟨event, -, completed⟩ := served asked flushed back services
  rw [since] at completed
  simp [Completed] at completed

end Traffic

end Handset
