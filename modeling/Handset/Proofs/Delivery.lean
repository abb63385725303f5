import Handset.Proofs.Runs

/-! Delivery. Every event that is let in is in the queue or has left it, and this once, and those
that are popped are popped in the order in which they were let in. -/

namespace Handset

/-- Where an event is that was let in. -/
inductive Fate
  | queued
  | gone (exit : Exit)
  deriving DecidableEq, Repr

variable {Work : Type}

namespace Deed

def admitted? : Deed Work → Option (Event Work)
  | .admitted event => some event
  | _ => none

def left? : Deed Work → Option (Event Work × Fate)
  | .left exit event => some (event, .gone exit)
  | _ => none

end Deed

@[simp] theorem filterMap_admitted_departures {exit : Exit} {events : List (Event Work)} :
    (departures exit events).filterMap Deed.admitted? = [] := by
  simp [departures, Deed.admitted?]

@[simp] theorem filterMap_left_departures {exit : Exit} {events : List (Event Work)} :
    (departures exit events).filterMap Deed.left? = events.map (·, .gone exit) := by
  simp only [departures, List.filterMap_map]
  exact congrFun List.filterMap_eq_map' events

namespace Traffic

variable {t t' : Traffic Work} {operation : Operation Work} {event : Event Work}

/-- The events that were let in, each where it is. -/
def whereabouts (t : Traffic Work) : List (Event Work × Fate) :=
  t.queue.events.map (·, .queued) ++ t.log.filterMap Deed.left?

def fates (t : Traffic Work) (id : Nat) : List Fate :=
  (t.whereabouts.filter (·.1.id == id)).map Prod.snd

/-- The ids of the events popped so far, in the order in which they were popped. -/
def popped (t : Traffic Work) : List Nat :=
  (t.log.filterMap (Deed.leftFor? .popped)).reverse.map Event.id

@[simp] theorem queued_mem_whereabouts :
    (event, .queued) ∈ t.whereabouts ↔ event ∈ t.queue.events := by
  simp only [whereabouts, List.mem_append, List.mem_map, List.mem_filterMap]
  constructor
  · rintro (⟨_, queued, same⟩ | ⟨deed, -, same⟩)
    · cases same
      exact queued
    · cases deed <;> cases same
  · exact fun queued => .inl ⟨event, queued, rfl⟩

@[simp] theorem gone_mem_whereabouts {exit : Exit} :
    (event, .gone exit) ∈ t.whereabouts ↔ .left exit event ∈ t.log := by
  simp only [whereabouts, List.mem_append, List.mem_map, List.mem_filterMap]
  constructor
  · rintro (⟨_, -, same⟩ | ⟨deed, told, same⟩)
    · cases same
    · cases deed <;> cases same
      exact told
  · exact fun told => .inr ⟨_, told, rfl⟩

theorem fst_whereabouts (t : Traffic Work) : t.whereabouts.map Prod.fst =
    t.queue.events ++ (t.log.filterMap Deed.left?).map Prod.fst := by
  simp [whereabouts, Function.comp_def]

/-- The newest event has the largest id, and every event is in one place. -/
structure Accounts (t : Traffic Work) : Prop where
  numbered : ∀ event ∈ t.log.filterMap Deed.admitted?, event.id ≤ t.queue.lastId
  distinct : (t.log.filterMap Deed.admitted?).Pairwise fun a b => b.id < a.id
  placed : (t.log.filterMap Deed.admitted?).Perm (t.whereabouts.map Prod.fst)

theorem accounts_empty : ({} : Traffic Work).Accounts :=
  ⟨by simp, .nil, .nil⟩

namespace Accounts

theorem mem_whereabouts (accounts : t.Accounts) :
    event ∈ t.log.filterMap Deed.admitted? ↔ ∃ fate, (event, fate) ∈ t.whereabouts := by
  simp [accounts.placed.mem_iff]

theorem le_lastId (accounts : t.Accounts) {fate : Fate} (here : (event, fate) ∈ t.whereabouts) :
    event.id ≤ t.queue.lastId :=
  accounts.numbered event (accounts.mem_whereabouts.mpr ⟨fate, here⟩)

theorem nodup (accounts : t.Accounts) : (t.whereabouts.map (·.1.id)).Nodup := by
  have distinct : ((t.log.filterMap Deed.admitted?).map Event.id).Nodup :=
    List.pairwise_map.mpr (accounts.distinct.imp fun lt => Nat.ne_of_gt lt)
  have nodup := (accounts.placed.map Event.id).nodup distinct
  rwa [List.map_map] at nodup

theorem fates_eq (accounts : t.Accounts) {fate : Fate} (here : (event, fate) ∈ t.whereabouts) :
    t.fates event.id = [fate] := by
  have once : (t.fates event.id).length ≤ 1 := by
    have count := List.nodup_iff_count.mp accounts.nodup event.id
    rw [List.count_eq_countP, List.countP_map, List.countP_eq_length_filter] at count
    rwa [fates, List.length_map]
  have mem : fate ∈ t.fates event.id :=
    List.mem_map.mpr ⟨_, List.mem_filter.mpr ⟨here, beq_self_eq_true _⟩, rfl⟩
  obtain ⟨only, eq⟩ := List.length_eq_one_iff.mp (Nat.le_antisymm once (List.length_pos_of_mem mem))
  rw [eq] at mem ⊢
  rw [List.mem_singleton.mp mem]

/-- Events leave the queue: they are told of, and the others stay. -/
theorem leave (accounts : t.Accounts) (exit : Exit) (gone : List (Event Work))
    {rest : List (Event Work)}
    (split : t.queue.events.Perm (gone ++ rest)) (events : t'.queue.events = rest)
    (lastId : t'.queue.lastId = t.queue.lastId) (log : t'.log = departures exit gone ++ t.log) :
    t'.Accounts := by
  have same : t'.log.filterMap Deed.admitted? = t.log.filterMap Deed.admitted? := by simp [log]
  refine ⟨?_, ?_, ?_⟩
  · rw [same, lastId]
    exact accounts.numbered
  · rw [same]
    exact accounts.distinct
  · rw [same]
    -- What left the list of queued events is now told of, so all of them are the same together.
    have told : (t'.log.filterMap Deed.left?).map Prod.fst =
        gone ++ (t.log.filterMap Deed.left?).map Prod.fst := by
      simp [log, Function.comp_def]
    refine accounts.placed.trans ?_
    rw [fst_whereabouts, fst_whereabouts, events, told, ← List.append_assoc]
    exact (split.trans List.perm_append_comm).append_right _

/-- An event that is let in comes last, under a number that none had. -/
theorem enqueue (accounts : t.Accounts) (kind : EventKind Work) :
    Accounts { t with
      queue := t.queue.enqueue kind, log := .admitted ⟨t.queue.lastId + 1, kind⟩ :: t.log } where
  numbered := by
    have numbered := accounts.numbered
    simp only [List.filterMap_cons, Deed.admitted?, List.forall_mem_cons]
    exact ⟨Nat.le_refl _, fun event known => Nat.le_succ_of_le (numbered event known)⟩
  distinct := by
    have numbered := accounts.numbered
    simp only [List.filterMap_cons, Deed.admitted?, List.pairwise_cons]
    exact ⟨fun event known => Nat.lt_succ_of_le (numbered event known), accounts.distinct⟩
  placed := by
    have placed := accounts.placed
    rw [fst_whereabouts] at placed ⊢
    simp only [List.filterMap_cons, Deed.admitted?, Deed.left?, Queue.enqueue, List.append_assoc]
    exact (placed.cons _).trans List.perm_middle.symm

end Accounts

theorem Effect.accounts (effect : t.Effect operation t') (accounts : t.Accounts) :
    t'.Accounts := by
  obtain ⟨numbered, distinct, placed⟩ := id accounts
  cases effect with
  | still | wait | signal | wake | sleep | finish | release | answer =>
    exact ⟨numbered, distinct, placed⟩
  | enqueue => exact accounts.enqueue _
  | @pop _ event rest _ events =>
    exact accounts.leave .popped [event] (by rw [events]; rfl) rfl rfl rfl
  | @take _ event before after _ events =>
    refine accounts.leave .taken [event] ?_ rfl rfl rfl
    rw [events]
    exact List.perm_middle
  | @remove p _ =>
    exact accounts.leave .removed _ (List.filter_append_perm p t.queue.events).symm rfl rfl rfl
  | close => exact accounts.leave .dropped _ (by simp) rfl rfl rfl

theorem Leads.accounts {rule : Discipline Work} (leads : Leads rule t t')
    (accounts : t.Accounts) : t'.Accounts :=
  leads.invariant accounts fun accounts _ effect => effect.accounts accounts

/-- What waits is in order and behind all that was popped. -/
structure InOrder (t : Traffic Work) : Prop where
  waiting : t.queue.events.Pairwise fun a b => a.id < b.id
  behind : ∀ first ∈ t.log.filterMap (Deed.leftFor? .popped), ∀ event ∈ t.queue.events,
    first.id < event.id
  popped : (t.log.filterMap (Deed.leftFor? .popped)).Pairwise fun a b => b.id < a.id

theorem inOrder_empty : ({} : Traffic Work).InOrder :=
  ⟨.nil, nofun, .nil⟩

/-- Events may leave out of turn. -/
theorem InOrder.sublist (inOrder : t.InOrder)
    (sublist : t'.queue.events.Sublist t.queue.events)
    (log : t'.log.filterMap (Deed.leftFor? .popped) = t.log.filterMap (Deed.leftFor? .popped)) :
    t'.InOrder := by
  obtain ⟨waiting, behind, popped⟩ := inOrder
  rw [← log] at behind popped
  exact ⟨waiting.sublist sublist, fun first gone event queued =>
    behind first gone event (sublist.subset queued), popped⟩

theorem Effect.inOrder (effect : t.Effect operation t') (accounts : t.Accounts)
    (inOrder : t.InOrder) : t'.InOrder := by
  cases effect with
  | still | wait | signal | wake | sleep | finish | release | answer =>
    exact inOrder.sublist (.refl _) rfl
  | enqueue =>
    -- Whether an event waits or was popped, it was let in, and so under a smaller number.
    have queued_le : ∀ event ∈ t.queue.events, event.id < t.queue.lastId + 1 := fun event queued =>
      Nat.lt_succ_of_le (accounts.le_lastId (queued_mem_whereabouts.mpr queued))
    have popped_le : ∀ first ∈ t.log.filterMap (Deed.leftFor? .popped),
        first.id < t.queue.lastId + 1 := fun first gone =>
      Nat.lt_succ_of_le (accounts.le_lastId (gone_mem_whereabouts.mpr (mem_leftFor.mp gone)))
    refine ⟨?_, fun first gone event queued => ?_, inOrder.popped⟩
    · refine List.pairwise_append.mpr ⟨inOrder.waiting, List.pairwise_singleton .., ?_⟩
      intro event queued newest mem
      rw [List.mem_singleton.mp mem]
      exact queued_le event queued
    · rcases List.mem_append.mp queued with queued | newest
      · exact inOrder.behind first gone event queued
      · rw [List.mem_singleton.mp newest]
        exact popped_le first gone
  | pop _ events =>
    obtain ⟨waiting, behind, popped⟩ := inOrder
    rw [events] at waiting behind
    obtain ⟨next, waiting⟩ := List.pairwise_cons.mp waiting
    refine ⟨waiting, ?_, ?_⟩
    · simp only [List.filterMap_cons, Deed.leftFor?, if_true, List.forall_mem_cons]
      exact ⟨next, fun first gone event queued => behind first gone event (.tail _ queued)⟩
    · simp only [List.filterMap_cons, Deed.leftFor?, if_true, List.pairwise_cons]
      exact ⟨fun first gone => behind first gone _ (.head _), popped⟩
  | @take _ event before after _ events =>
    refine inOrder.sublist ?_ rfl
    rw [events]
    exact sublist_split before event after
  | remove =>
    refine inOrder.sublist List.filter_sublist ?_
    simp [filterMap_leftFor_departures]
  | close =>
    refine inOrder.sublist (List.nil_sublist _) ?_
    simp [filterMap_leftFor_departures]

theorem Leads.inOrder {rule : Discipline Work} (leads : Leads rule t t') (accounts : t.Accounts)
    (inOrder : t.InOrder) : t'.InOrder :=
  And.right <| leads.invariant (P := fun t => t.Accounts ∧ t.InOrder) ⟨accounts, inOrder⟩
    fun both _ effect => ⟨effect.accounts both.1, effect.inOrder both.1 both.2⟩

/-- Whatever the threads do, events are popped in the order in which they were let in, every event
that is let in has one fate, which is final once it has left the queue, and the counters of the
queue count the runs that are over, of events that were popped and of events that were taken. -/
theorem delivered_once_in_order (reaches : Reaches Discipline.free t) :
    t.popped.Pairwise (· < ·) ∧
    (∀ event, .admitted event ∈ t.log → ∃ fate, t.fates event.id = [fate] ∧
      ∀ exit, fate = .gone exit → ∀ t', Leads Discipline.free t t' →
        t'.fates event.id = [.gone exit]) ∧
    (∀ tag, t.queue.completed.count tag =
      t.log.countP (Deed.finishes tag) + t.log.countP (Deed.releases tag)) ∧
    (∀ event, .finished event ∈ t.log → .left .popped event ∈ t.log) ∧
    ∀ event, .released event ∈ t.log → .left .taken event ∈ t.log := by
  have accounts := reaches.accounts accounts_empty
  have inOrder := reaches.inOrder accounts_empty inOrder_empty
  have handles := reaches.handles handles_empty
  refine ⟨?_, fun event admitted => ?_, (reaches.registers registers_empty).completed,
    fun event => handles.popped_of_finished, fun event => handles.taken_of_released⟩
  · exact List.pairwise_map.mpr (List.pairwise_reverse.mpr inOrder.popped)
  · have known : event ∈ t.log.filterMap Deed.admitted? :=
      List.mem_filterMap.mpr ⟨_, admitted, rfl⟩
    obtain ⟨fate, here⟩ := accounts.mem_whereabouts.mp known
    refine ⟨fate, accounts.fates_eq here, fun exit gone t' leads => ?_⟩
    obtain ⟨late, log, -⟩ := leads.kept
    refine (leads.accounts accounts).fates_eq (gone_mem_whereabouts.mpr ?_)
    rw [log]
    refine List.mem_append_right late (gone_mem_whereabouts.mp ?_)
    rwa [← gone]

/-- A handler takes the next event out itself and removes another; a repaint is run in place. -/
def nestedThenClosed : List (Operation Unit) :=
  [.post .paint, .post .showNotify, .post .hideNotify, .pop 0, .post .paint, .pop 0,
    .remove (·.tag == .hideNotify), .finish 0, .finish 0, .flush .paint false 1, .post .paint,
    .release 0, .close]

theorem nestedThenClosed_end :
    (({} : Traffic Unit).run Discipline.free nestedThenClosed).map
        (fun t => (t.popped, [1, 2, 3, 4, 5].map t.fates, t.log)) =
      some ([1, 2], [[.gone .popped], [.gone .popped], [.gone .removed], [.gone .taken],
          [.gone .dropped]],
        [.left .dropped ⟨5, .paint⟩, .released ⟨4, .paint⟩, .admitted ⟨5, .paint⟩,
          .left .taken ⟨4, .paint⟩, .finished ⟨1, .paint⟩, .finished ⟨2, .showNotify⟩,
          .left .removed ⟨3, .hideNotify⟩, .left .popped ⟨2, .showNotify⟩, .admitted ⟨4, .paint⟩,
          .left .popped ⟨1, .paint⟩, .admitted ⟨3, .hideNotify⟩, .admitted ⟨2, .showNotify⟩,
          .admitted ⟨1, .paint⟩]) :=
  rfl

theorem delivered_once_in_order_nestedThenClosed : ∃ t : Traffic Unit,
    Reaches Discipline.free t ∧ t.popped = [1, 2] ∧ t.popped.Pairwise (· < ·) ∧
    t.fates 3 = [.gone .removed] ∧
    (∀ t', Leads Discipline.free t t' → t'.fates 3 = [.gone .removed]) ∧
    t.queue.completed.count .paint = 2 := by
  obtain ⟨t, made, ends⟩ := Option.map_eq_some_iff.mp nestedThenClosed_end
  simp only [Prod.mk.injEq, List.map_cons, List.cons.injEq] at ends
  obtain ⟨popped, ⟨-, -, removed, -⟩, log⟩ := ends
  have reaches : Reaches Discipline.free t := leads_run made
  obtain ⟨ordered, once, counted, -⟩ := delivered_once_in_order reaches
  obtain ⟨fate, only, final⟩ := once ⟨3, .hideNotify⟩ (by simp [log])
  obtain rfl : fate = .gone .removed := by simpa [removed] using only.symm
  refine ⟨t, reaches, popped, ordered, removed, final _ rfl, (counted .paint).trans ?_⟩
  rw [log]
  rfl

end Traffic

end Handset
