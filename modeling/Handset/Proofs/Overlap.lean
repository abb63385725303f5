import Handset.Proofs.Runs

/-! How many repaints there can be at once: at most one waits, at most one is handled in turn and at
most one is run in place. All three are there if a repaint was popped while another one, taken out
before, was still run in place, for a flush looks at what is in progress and the thread that takes
events out does not. -/

namespace Handset.Traffic

variable {Work : Type} {t t' : Traffic Work} {operation : Operation Work}

/-- The repaints that wait, that are handled in turn and that are run in place. -/
def repaints (t : Traffic Work) : Nat :=
  t.queue.events.countP (·.tag == .paint) + t.queue.current.toList.countP (·.1 == .paint) +
    t.inPlace.countP (·.event.tag == .paint)

/-- A repaint is still run in place that was taken out before the current one was popped, and
another one waits that was posted since. -/
def Overlapped (t : Traffic Work) : Prop :=
  ∃ run ∈ t.inPlace, ∃ queued ∈ t.queue.events, ∃ popped late early,
    t.log = late ++ .left .popped popped :: early ∧ t.queue.current = some (.paint, popped.id) ∧
    .left .taken run.event ∈ early ∧ .admitted queued ∈ late ∧
    run.event.tag = .paint ∧ popped.tag = .paint ∧ queued.tag = .paint

/-- What went before the current event was popped, and what has come since. -/
def Handling (t : Traffic Work) (tag : EventTag) (id : Nat) : Prop :=
  ∃ popped late early, t.log = late ++ .left .popped popped :: early ∧
    popped.tag = tag ∧ popped.id = id ∧
    (∀ run ∈ t.inPlace, run.event.tag = tag → .left .taken run.event ∈ early) ∧
    (tag = .paint → ∀ queued ∈ t.queue.events, queued.tag = .paint → .admitted queued ∈ late)

theorem Handling.keep {tag : EventTag} {id : Nat} (handling : t.Handling tag id)
    (new : List (Deed Work)) (log : t'.log = new ++ t.log)
    (inPlace : ∀ run ∈ t'.inPlace, run.event.tag = tag → run ∈ t.inPlace)
    (queued : ∀ event ∈ t'.queue.events, event.tag = .paint →
      event ∈ t.queue.events ∨ .admitted event ∈ new) : t'.Handling tag id := by
  obtain ⟨popped, late, early, log₀, tagged, numbered, taken, since⟩ := handling
  refine ⟨popped, new ++ late, early, by rw [log, log₀, List.append_assoc], tagged, numbered,
    fun run live same => taken run (inPlace run live same) same, fun paint event waits same => ?_⟩
  rcases queued event waits same with known | posted
  · exact List.mem_append_right _ (since paint event known same)
  · exact List.mem_append_left _ posted

/-- At most one repaint waits, and the history of the current event is kept. -/
structure Lone (t : Traffic Work) : Prop where
  queued : t.queue.events.countP (·.tag == .paint) ≤ 1
  handling : ∀ tag id, t.queue.current = some (tag, id) → t.Handling tag id

theorem lone_empty : ({} : Traffic Work).Lone :=
  ⟨by simp, nofun⟩

/-- Where nothing is popped and only repaints that are told of come in, all goes on as before. -/
theorem Lone.keep (lone : t.Lone) (new : List (Deed Work)) (log : t'.log = new ++ t.log)
    (current : t'.queue.current = t.queue.current)
    (inPlace : ∀ run ∈ t'.inPlace, run ∈ t.inPlace)
    (queued : t'.queue.events.Sublist t.queue.events) : t'.Lone where
  queued := Nat.le_trans queued.countP_le lone.queued
  handling tag id now :=
    (lone.handling tag id (current.symm.trans now)).keep new log (fun run live _ => inPlace run live)
      fun _ waits _ => .inl (queued.subset waits)

theorem Effect.lone (effect : t.Effect operation t') (handles : t.Handles) (lone : t.Lone) :
    t'.Lone := by
  cases effect with
  | still | wait | signal | wake | sleep =>
    exact lone.keep [] rfl rfl (fun _ live => live) (.refl _)
  | answer => exact lone.keep [_] rfl rfl (fun _ live => live) (.refl _)
  | remove => exact lone.keep _ rfl rfl (fun _ live => live) List.filter_sublist
  | close => exact lone.keep _ rfl rfl (fun _ live => live) (List.nil_sublist _)
  | @release before after run running =>
    refine lone.keep [_] rfl rfl (fun other live => ?_) (.refl _)
    rw [running]
    exact (sublist_split before run after).subset live
  | finish => exact ⟨lone.queued, nofun⟩
  | @enqueue kind isOpen fresh =>
    refine ⟨?_, fun tag id now => ?_⟩
    · have queued := lone.queued
      simp only [Queue.enqueue, List.countP_append, List.countP_singleton]
      split
      · rename_i paint
        have none : t.queue.events.countP (·.tag == .paint) = 0 :=
          List.countP_eq_zero.mpr (by simpa using fresh (beq_iff_eq.mp paint))
        exact Nat.le_of_eq (by rw [none])
      · exact queued
    · refine (lone.handling tag id now).keep [_] rfl (fun _ live _ => live) fun event waits _ => ?_
      rcases List.mem_append.mp waits with known | newest
      · exact .inl known
      · rw [List.mem_singleton.mp newest]
        exact .inr List.mem_cons_self
  | @pop thread event rest isOpen events =>
    have queued := lone.queued
    rw [events] at queued
    refine ⟨Nat.le_trans (List.sublist_cons_self event rest).countP_le queued, fun tag id now => ?_⟩
    cases now
    -- Here a history begins: what is in place was taken out before, and no other repaint waits.
    refine ⟨event, [], t.log, rfl, rfl, rfl, fun run live _ => ?_, fun paint other waits same => ?_⟩
    · exact handles.taken live
    · have first : (event.tag == .paint) = true := by simp [paint]
      have behind : 0 < rest.countP (·.tag == .paint) :=
        List.countP_pos_iff.mpr ⟨other, waits, by simp [same]⟩
      rw [List.countP_cons, if_pos first] at queued
      omega
  | @take thread event before after idle events =>
    have rest : (before ++ after).Sublist t.queue.events := by
      rw [events]
      exact sublist_split before event after
    refine ⟨Nat.le_trans rest.countP_le lone.queued, fun tag id now => ?_⟩
    have current : t.queue.current = some (tag, id) := now
    refine (lone.handling tag id now).keep [_] rfl (fun run live same => ?_)
      fun other waits _ => .inl (rest.subset waits)
    rcases List.mem_append.mp live with live | newest
    · exact live
    · -- A flush takes nothing of the tag that is being handled.
      cases List.mem_singleton.mp newest
      have busy : t.queue.inProgress tag = true := Queue.inProgress_iff.mpr (.inl ⟨id, current⟩)
      rw [← same, idle] at busy
      cases busy

theorem Leads.lone {rule : Discipline Work} (leads : Leads rule t t') (handles : t.Handles)
    (lone : t.Lone) : t'.Lone :=
  And.right <| leads.invariant (P := fun t => t.Handles ∧ t.Lone) ⟨handles, lone⟩
    fun both _ effect => ⟨effect.handles both.1, effect.lone both.1 both.2⟩

theorem Registers.countP_inPlace (registers : t.Registers) (tag : EventTag) :
    t.inPlace.countP (·.event.tag == tag) ≤ 1 := by
  have count := List.nodup_iff_count.mp registers.nodup tag
  rwa [List.count_eq_countP, List.countP_map] at count

theorem countP_current (t : Traffic Work) :
    t.queue.current.toList.countP (·.1 == .paint) ≤ 1 := by
  refine Nat.le_trans List.countP_le_length ?_
  cases t.queue.current <;> simp

theorem overlapped_of_repaints (registers : t.Registers) (lone : t.Lone)
    (many : 2 < t.repaints) : t.Overlapped := by
  have waiting := lone.queued
  have inPlace := registers.countP_inPlace .paint
  have inTurn := t.countP_current
  unfold repaints at many
  have one : 0 < t.queue.events.countP (·.tag == .paint) := by omega
  have two : 0 < t.queue.current.toList.countP (·.1 == .paint) := by omega
  have three : 0 < t.inPlace.countP (·.event.tag == .paint) := by omega
  obtain ⟨queued, waits, paint⟩ := List.countP_pos_iff.mp one
  obtain ⟨⟨tag, id⟩, current, handled⟩ := List.countP_pos_iff.mp two
  obtain ⟨run, live, ran⟩ := List.countP_pos_iff.mp three
  obtain rfl : tag = .paint := beq_iff_eq.mp handled
  have current : t.queue.current = some (.paint, id) := Option.mem_toList.mp current
  obtain ⟨popped, late, early, log, tagged, rfl, taken, since⟩ := lone.handling _ _ current
  have ran := beq_iff_eq.mp ran
  have paint := beq_iff_eq.mp paint
  exact ⟨run, live, queued, waits, popped, late, early, log, current, taken run live ran,
    since rfl queued waits paint, ran, tagged, paint⟩

theorem repaints_of_overlapped (overlapped : t.Overlapped) : 2 < t.repaints := by
  obtain ⟨run, live, queued, waits, popped, late, early, -, current, -, -, ran, -, paint⟩ :=
    overlapped
  have one : 0 < t.queue.events.countP (·.tag == .paint) :=
    List.countP_pos_iff.mpr ⟨queued, waits, by simp [paint]⟩
  have three : 0 < t.inPlace.countP (·.event.tag == .paint) :=
    List.countP_pos_iff.mpr ⟨run, live, by simp [ran]⟩
  simp only [repaints, current, Option.toList_some, List.countP_singleton, beq_self_eq_true,
    if_true]
  omega

/-- There are never more than three repaints, and three exactly where one is handled in turn that was
popped while another one was already run in place, and a third has been posted since. -/
theorem repaints_le_three (reaches : Reaches Discipline.free t) :
    t.repaints ≤ 3 ∧ (2 < t.repaints ↔ t.Overlapped) := by
  have registers := reaches.registers registers_empty
  have lone := reaches.lone handles_empty lone_empty
  refine ⟨?_, overlapped_of_repaints registers lone, repaints_of_overlapped⟩
  have waiting := lone.queued
  have inPlace := registers.countP_inPlace .paint
  have inTurn := t.countP_current
  unfold repaints
  omega

/-- A repaint is taken out to be run in place; while it runs, the thread that handles events in turn
takes out the next one and a third one is posted. -/
def threeRepaints : List (Operation Unit) :=
  [.post .paint, .flush .paint false 1, .post .paint, .pop 0, .post .paint]

theorem threeRepaints_end :
    (({} : Traffic Unit).run Discipline.oneByOne threeRepaints).map
        (fun t => (t.repaints, t.queue.closed)) = some (3, false) :=
  rfl

theorem repaints_le_three_threeRepaints : ∃ t : Traffic Unit, Reaches Discipline.free t ∧
    t.repaints ≤ 3 ∧ t.Overlapped := by
  obtain ⟨t, made, ends⟩ := Option.map_eq_some_iff.mp threeRepaints_end
  obtain ⟨three, -⟩ := Prod.mk.inj ends
  have reaches : Reaches Discipline.free t := (leads_run made).free
  obtain ⟨bound, overlapped⟩ := repaints_le_three reaches
  exact ⟨t, reaches, bound, overlapped.mp (by omega)⟩

/-- Though no event is taken out while another is handled, one repaint waits while two are at work. -/
theorem repaints_unbounded_by_two :
    ¬ ∀ t : Traffic Unit, Reaches Discipline.oneByOne t → t.repaints ≤ 2 := by
  intro bound
  obtain ⟨t, made, ends⟩ := Option.map_eq_some_iff.mp threeRepaints_end
  obtain ⟨three, -⟩ := Prod.mk.inj ends
  have two := bound t (leads_run made)
  omega

end Handset.Traffic
