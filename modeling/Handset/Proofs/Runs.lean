import Handset.Proofs.Effect

/-! Runs that are at work and runs that are over. The registry of the queue holds the runs in place,
no two of them of the same tag, and its counters the runs that are over. -/

namespace Handset

variable {Work : Type}

namespace Deed

/-- A handler of an event of this tag has ended. -/
def finishes (tag : EventTag) : Deed Work → Bool
  | .finished event => event.tag == tag
  | _ => false

/-- A run in place of an event of this tag has ended. -/
def releases (tag : EventTag) : Deed Work → Bool
  | .released event => event.tag == tag
  | _ => false

def ends (tag : EventTag) (deed : Deed Work) : Bool :=
  deed.finishes tag || deed.releases tag

def leftFor? (exit : Exit) : Deed Work → Option (Event Work)
  | .left exit' event => if exit' = exit then some event else none
  | _ => none

def finished? : Deed Work → Option (Event Work)
  | .finished event => some event
  | _ => none

def released? : Deed Work → Option (Event Work)
  | .released event => some event
  | _ => none

end Deed

theorem mem_leftFor {exit : Exit} {event : Event Work} {log : List (Deed Work)} :
    event ∈ log.filterMap (Deed.leftFor? exit) ↔ .left exit event ∈ log := by
  refine List.mem_filterMap.trans ⟨?_, fun mem => ⟨_, mem, by simp [Deed.leftFor?]⟩⟩
  rintro ⟨deed, mem, same⟩
  cases deed with
  | left exit' event' =>
    obtain ⟨rfl, rfl⟩ : exit' = exit ∧ event' = event := by simpa [Deed.leftFor?] using same
    exact mem
  | _ => cases same

section Departures

variable {exit other : Exit} {events : List (Event Work)} {tag : EventTag}

@[simp] theorem countP_finishes_departures :
    (departures exit events).countP (Deed.finishes tag) = 0 := by
  simp [departures, Deed.finishes]

@[simp] theorem countP_releases_departures :
    (departures exit events).countP (Deed.releases tag) = 0 := by
  simp [departures, Deed.releases]

@[simp] theorem filterMap_finished_departures :
    (departures exit events).filterMap Deed.finished? = [] := by
  simp [departures, Deed.finished?]

@[simp] theorem filterMap_released_departures :
    (departures exit events).filterMap Deed.released? = [] := by
  simp [departures, Deed.released?]

theorem filterMap_leftFor_departures (different : exit ≠ other) :
    (departures exit events).filterMap (Deed.leftFor? other) = [] := by
  simp [departures, Deed.leftFor?, different]

end Departures

/-- A run that is over counts once, in turn or in place. -/
theorem countP_ends (tag : EventTag) (log : List (Deed Work)) :
    log.countP (Deed.ends tag) =
      log.countP (Deed.finishes tag) + log.countP (Deed.releases tag) := by
  induction log with
  | nil => rfl
  | cons deed log ih =>
    simp only [List.countP_cons, ih]
    cases deed <;> simp [Deed.ends, Deed.finishes, Deed.releases] <;> omega

namespace Traffic

variable {t t' : Traffic Work} {operation : Operation Work} {tag : EventTag}

/-- The registry and the counters of the queue tell the truth. -/
structure Registers (t : Traffic Work) : Prop where
  registered : t.queue.inlineRuns.Perm (t.inPlace.map Run.entry)
  apart : t.inPlace.Pairwise fun a b => a.event.tag ≠ b.event.tag
  completed : ∀ tag, t.queue.completed.count tag =
    t.log.countP (Deed.finishes tag) + t.log.countP (Deed.releases tag)

theorem Registers.inProgress (registers : t.Registers) : t.queue.inProgress tag = true ↔
    (∃ id, t.queue.current = some (tag, id)) ∨ ∃ run ∈ t.inPlace, run.event.tag = tag := by
  refine Queue.inProgress_iff.trans (or_congr_right ?_)
  simp only [registers.registered.mem_iff, List.mem_map, Run.entry, Prod.mk.injEq]
  constructor
  · rintro ⟨thread, run, live, tagged, -⟩
    exact ⟨run, live, tagged⟩
  · rintro ⟨run, live, tagged⟩
    exact ⟨run.thread, run, live, tagged, rfl⟩

theorem Registers.nodup (registers : t.Registers) : (t.inPlace.map (·.event.tag)).Nodup :=
  List.pairwise_map.mpr registers.apart

theorem registers_empty : ({} : Traffic Work).Registers where
  registered := .nil
  apart := .nil
  completed := by simp

/-- A run that is over leaves the registry, which keeps the others. -/
theorem Registers.unregister (registers : t.Registers) {before after : List (Run Work)}
    {run : Run Work} (running : t.inPlace = before ++ run :: after) :
    (Queue.unregister t.queue.inlineRuns run.entry).Perm ((before ++ after).map Run.entry) := by
  have mem : run.entry ∈ t.queue.inlineRuns :=
    registers.registered.mem_iff.mpr (by simp [running])
  have whole : (run.entry :: Queue.unregister t.queue.inlineRuns run.entry).Perm
      (run.entry :: (before ++ after).map Run.entry) := by
    refine (Queue.perm_unregister mem).symm.trans (registers.registered.trans ?_)
    rw [running]
    exact List.perm_middle.map Run.entry
  exact whole.cons_inv

theorem Effect.registers (effect : t.Effect operation t') (registers : t.Registers) :
    t'.Registers := by
  have registered := registers.registered
  have apart := registers.apart
  have completed := registers.completed
  cases effect with
  | still | wait | signal | wake | sleep => exact ⟨registered, apart, completed⟩
  | enqueue | pop | answer => exact ⟨registered, apart, by simpa [Deed.finishes, Deed.releases]⟩
  | remove | close => exact ⟨registered, apart, by simpa⟩
  | @finish before after run running newest =>
    refine ⟨registered, apart, fun tag => ?_⟩
    have bumped := t.queue.count_complete run.event.tag tag
    simp only [Traffic.finish, Queue.finish, bumped, completed, List.countP_cons, Deed.finishes,
      Deed.releases, beq_iff_eq, Bool.false_eq_true, if_false]
    omega
  | @take thread event before after idle events =>
    have fresh : ∀ run ∈ t.inPlace, run.event.tag ≠ event.tag := fun run live same =>
      Bool.false_ne_true (idle.symm.trans (registers.inProgress.mpr (.inr ⟨run, live, same⟩)))
    refine ⟨?_, ?_, by simpa [Deed.finishes, Deed.releases]⟩
    · simpa [Run.entry] using registered.append_right [(event.tag, thread)]
    · simpa [List.pairwise_append] using ⟨apart, fresh⟩
  | @release before after run running =>
    refine ⟨registers.unregister running, ?_, fun tag => ?_⟩
    · rw [running] at apart
      exact apart.sublist (sublist_split before run after)
    · have bumped := t.queue.count_complete run.event.tag tag
      simp only [Traffic.release, Queue.finishInline, bumped, completed, List.countP_cons,
        Deed.finishes, Deed.releases, beq_iff_eq, Bool.false_eq_true, if_false]
      omega

theorem Leads.registers {rule : Discipline Work} (leads : Leads rule t t')
    (registers : t.Registers) : t'.Registers :=
  leads.invariant registers fun registers _ effect => effect.registers registers

/-- An event that was taken out to be run is at work or its run is over, and this only once. -/
structure Handles (t : Traffic Work) : Prop where
  inTurn : (t.log.filterMap (Deed.leftFor? .popped)).Perm
    (t.inTurn.map Run.event ++ t.log.filterMap Deed.finished?)
  inPlace : (t.log.filterMap (Deed.leftFor? .taken)).Perm
    (t.inPlace.map Run.event ++ t.log.filterMap Deed.released?)

theorem handles_empty : ({} : Traffic Work).Handles :=
  ⟨.nil, .nil⟩

/-- A run that leaves the list of those at work joins those that are over. -/
theorem perm_over {before after : List (Run Work)} {run : Run Work} {ended : List (Event Work)} :
    ((before ++ run :: after).map Run.event ++ ended).Perm
      ((before ++ after).map Run.event ++ run.event :: ended) := by
  have front : (before ++ run :: after).Perm (run :: (before ++ after)) := List.perm_middle
  exact ((front.map Run.event).append_right ended).trans List.perm_middle.symm

theorem Effect.handles (effect : t.Effect operation t') (handles : t.Handles) : t'.Handles := by
  obtain ⟨inTurn, inPlace⟩ := handles
  cases effect with
  | still | wait | signal | wake | sleep => exact ⟨inTurn, inPlace⟩
  | enqueue | pop | answer =>
    exact ⟨by simpa [Deed.leftFor?, Deed.finished?], by simpa [Deed.leftFor?, Deed.released?]⟩
  | remove | close =>
    exact ⟨by simpa [filterMap_leftFor_departures], by simpa [filterMap_leftFor_departures]⟩
  | @finish before after run running newest =>
    rw [running] at inTurn
    refine ⟨?_, by simpa [Deed.leftFor?, Deed.released?, Traffic.finish]⟩
    exact inTurn.trans perm_over
  | @take thread event before after idle events =>
    refine ⟨by simpa [Deed.leftFor?, Deed.finished?], ?_⟩
    simp only [List.map_append, List.append_assoc]
    exact (inPlace.cons event).trans List.perm_middle.symm
  | @release before after run running =>
    rw [running] at inPlace
    refine ⟨by simpa [Deed.leftFor?, Deed.finished?, Traffic.release], ?_⟩
    exact inPlace.trans perm_over

theorem Leads.handles {rule : Discipline Work} (leads : Leads rule t t')
    (handles : t.Handles) : t'.Handles :=
  leads.invariant handles fun handles _ effect => effect.handles handles

theorem Handles.popped (handles : t.Handles) {run : Run Work} (working : run ∈ t.inTurn) :
    .left .popped run.event ∈ t.log :=
  mem_leftFor.mp (handles.inTurn.mem_iff.mpr
    (List.mem_append_left _ (List.mem_map_of_mem working)))

theorem Handles.taken (handles : t.Handles) {run : Run Work} (working : run ∈ t.inPlace) :
    .left .taken run.event ∈ t.log :=
  mem_leftFor.mp (handles.inPlace.mem_iff.mpr
    (List.mem_append_left _ (List.mem_map_of_mem working)))

theorem Handles.popped_of_finished (handles : t.Handles) {event : Event Work}
    (finished : .finished event ∈ t.log) : .left .popped event ∈ t.log :=
  mem_leftFor.mp (handles.inTurn.mem_iff.mpr
    (List.mem_append_right _ (List.mem_filterMap.mpr ⟨_, finished, rfl⟩)))

theorem Handles.taken_of_released (handles : t.Handles) {event : Event Work}
    (released : .released event ∈ t.log) : .left .taken event ∈ t.log :=
  mem_leftFor.mp (handles.inPlace.mem_iff.mpr
    (List.mem_append_right _ (List.mem_filterMap.mpr ⟨_, released, rfl⟩)))

theorem Handles.left (handles : t.Handles) {run : Run Work}
    (working : run ∈ t.inTurn ++ t.inPlace) : ∃ exit, .left exit run.event ∈ t.log := by
  rcases List.mem_append.mp working with inTurn | inPlace
  · exact ⟨.popped, handles.popped inTurn⟩
  · exact ⟨.taken, handles.taken inPlace⟩

end Traffic

end Handset
