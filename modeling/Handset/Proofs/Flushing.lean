import Handset.Proofs.Runs

/-! Threads that make sure that a run is over. One that takes an event out is the only one that runs
an event of this tag; one that waits goes on after a run has ended, and while none has, there is one
to wait for. -/

namespace Handset

variable {Work : Type}

/-- The deeds since there were `n` of them. -/
def since (log : List (Deed Work)) (n : Nat) : List (Deed Work) :=
  log.take (log.length - n)

theorem countP_since (p : Deed Work → Bool) (log : List (Deed Work)) (n : Nat) :
    (since log n).countP p + (log.drop (log.length - n)).countP p = log.countP p := by
  rw [since, ← List.countP_append, List.take_append_drop]

/-- A thread that has waited is told so after a run that it waited for. -/
def Deed.Honest (before : List (Deed Work)) : Deed Work → Prop
  | .answered tag n => ∃ deed ∈ since before n, deed.ends tag
  | _ => True

def Honest : List (Deed Work) → Prop
  | [] => True
  | deed :: before => deed.Honest before ∧ Honest before

theorem Honest.at {log after before : List (Deed Work)} {deed : Deed Work} (honest : Honest log)
    (split : log = after ++ deed :: before) : deed.Honest before := by
  induction after generalizing log with
  | nil =>
    subst split
    exact honest.1
  | cons _ after ih =>
    subst split
    exact ih honest.2 rfl

theorem honest_departures {exit : Exit} {events : List (Event Work)} {log : List (Deed Work)}
    (honest : Honest log) : Honest (departures exit events ++ log) := by
  induction events with
  | nil => exact honest
  | cons event events ih => exact ⟨trivial, ih⟩

namespace Traffic

variable {t t' : Traffic Work} {operation : Operation Work} {tag : EventTag} {waiter : Waiter}

/-- The events that are handled or run in place. -/
def working (t : Traffic Work) : List (Run Work) :=
  t.inTurn ++ t.inPlace

/-- What is handled in turn is the current event. -/
def Single (t : Traffic Work) : Prop :=
  t.queue.current.toList = t.inTurn.map fun run => (run.event.tag, run.event.id)

theorem Effect.single (effect : t.Effect operation t') (allowed : Discipline.oneByOne t operation)
    (single : t.Single) : t'.Single := by
  cases effect with
  | still | wait | signal | wake | sleep | answer | enqueue | remove | take | release | close =>
    exact single
  | pop =>
    have idle : t.inTurn = [] := List.isEmpty_iff.mp allowed
    simp [Single, idle]
  | @finish before after run running newest =>
    have one : t.inTurn.length ≤ 1 := by
      have length := congrArg List.length single
      rw [List.length_map] at length
      rw [← length]
      cases t.queue.current <;> simp
    rw [running, List.length_append, List.length_cons] at one
    obtain rfl : before = [] := List.eq_nil_of_length_eq_zero (by omega)
    obtain rfl : after = [] := List.eq_nil_of_length_eq_zero (by omega)
    rfl

theorem Single.inProgress (single : t.Single) (registers : t.Registers) :
    t.queue.inProgress tag = true ↔ ∃ run ∈ t.working, run.event.tag = tag := by
  have inTurn : (∃ id, t.queue.current = some (tag, id)) ↔
      ∃ run ∈ t.inTurn, run.event.tag = tag := by
    rw [Single] at single
    simp only [← Option.mem_toList, single, List.mem_map, Prod.mk.injEq]
    constructor
    · rintro ⟨id, run, handled, tagged, -⟩
      exact ⟨run, handled, tagged⟩
    · rintro ⟨run, handled, tagged⟩
      exact ⟨run.event.id, run, handled, tagged, rfl⟩
  rw [registers.inProgress, inTurn, working]
  simp only [List.mem_append, or_and_right, exists_or]

/-- A thread that waits: it knows how many runs had ended when it came, as long as there are no more
there is one to wait for, and once there are it is awake or is going to be woken. -/
structure Waiting (t : Traffic Work) (waiter : Waiter) : Prop where
  came : waiter.since ≤ t.log.length
  seen : waiter.seen =
    (t.log.drop (t.log.length - waiter.since)).countP (Deed.ends waiter.tag)
  working : t.queue.completed.count waiter.tag = waiter.seen →
    ∃ run ∈ t.working, run.event.tag = waiter.tag
  woken : t.queue.completed.count waiter.tag ≠ waiter.seen → waiter.asleep → 0 < t.signals

theorem drop_older {α : Type} {new old : List α} {n : Nat} (le : n ≤ old.length) :
    (new ++ old).drop ((new ++ old).length - n) = old.drop (old.length - n) := by
  have length : (new ++ old).length - n = new.length + (old.length - n) := by
    rw [List.length_append]
    omega
  rw [length, List.drop_append]
  simp

namespace Waiting

/-- No run ends, no run that is at work is lost, and no signal. -/
theorem keep (waiting : t.Waiting waiter) (new : List (Deed Work)) (log : t'.log = new ++ t.log)
    (completed : t'.queue.completed = t.queue.completed)
    (working : ∀ run ∈ t.working, run ∈ t'.working) (signals : t.signals ≤ t'.signals) :
    t'.Waiting waiter where
  came := by
    have came := waiting.came
    rw [log, List.length_append]
    omega
  seen := by rw [log, drop_older waiting.came]; exact waiting.seen
  working same := by
    rw [completed] at same
    obtain ⟨run, atWork, tagged⟩ := waiting.working same
    exact ⟨run, working run atWork, tagged⟩
  woken more asleep := by
    rw [completed] at more
    exact Nat.lt_of_lt_of_le (waiting.woken more asleep) signals

theorem seen_le (waiting : t.Waiting waiter) (registers : t.Registers) :
    waiter.seen ≤ t.queue.completed.count waiter.tag := by
  rw [waiting.seen, registers.completed, ← countP_ends]
  exact (List.drop_sublist ..).countP_le

/-- Some run of the tag has ended since. -/
theorem exists_end (waiting : t.Waiting waiter) (registers : t.Registers)
    (more : t.queue.completed.count waiter.tag ≠ waiter.seen) :
    ∃ deed ∈ since t.log waiter.since, deed.ends waiter.tag := by
  refine List.countP_pos_iff.mp (Nat.pos_of_ne_zero fun none => more ?_)
  have all := countP_since (Deed.ends waiter.tag) t.log waiter.since
  rw [none, ← waiting.seen, countP_ends, ← registers.completed, Nat.zero_add] at all
  exact all.symm

/-- A run ends, of this tag or of another one, and a signal is on its way. -/
theorem ended (waiting : t.Waiting waiter) (registers : t.Registers) {deed : Deed Work}
    (log : t'.log = deed :: t.log)
    (completed : t'.queue.completed.count waiter.tag =
      t.queue.completed.count waiter.tag + if tag = waiter.tag then 1 else 0)
    (working : ∀ run ∈ t.working, run.event.tag ≠ tag → run ∈ t'.working)
    (signals : 0 < t'.signals) : t'.Waiting waiter where
  came := by
    rw [log]
    exact Nat.le_succ_of_le waiting.came
  seen := by rw [log, ← List.singleton_append, drop_older waiting.came]; exact waiting.seen
  working same := by
    have known := waiting.seen_le registers
    rw [completed] at same
    -- A run of its own tag has moved the counter; after another one its own is still at work.
    split at same
    · omega
    · rename_i other
      obtain ⟨run, atWork, tagged⟩ := waiting.working same
      exact ⟨run, working run atWork (tagged ▸ Ne.symm other), tagged⟩
  woken _ _ := signals

/-- It is awake, or it has seen that it must wait. -/
theorem change (waiting : t.Waiting waiter) (asleep : Bool) (log : t'.log = t.log)
    (queue : t'.queue = t.queue) (working : t'.working = t.working)
    (waits : asleep → waiter.waits t.queue) : t'.Waiting { waiter with asleep } where
  came := by rw [log]; exact waiting.came
  seen := by rw [log]; exact waiting.seen
  working := by rw [queue, working]; exact waiting.working
  woken more isAsleep := by
    rw [queue] at more
    exact absurd (beq_iff_eq.mp (waits isAsleep)) more

end Waiting

/-- All who wait can go on some time, and all who went on were right to. -/
structure Serves (t : Traffic Work) : Prop where
  single : t.Single
  waiting : ∀ waiter ∈ t.waiters, t.Waiting waiter
  honest : Honest t.log

theorem serves_empty : ({} : Traffic Work).Serves :=
  ⟨rfl, nofun, trivial⟩

theorem mem_working_of_split {before after : List (Run Work)} {run : Run Work} (other : Run Work)
    (ne : other.event.tag ≠ run.event.tag) (mem : other ∈ before ++ run :: after) :
    other ∈ before ++ after := by
  rcases List.mem_append.mp mem with front | back
  · exact List.mem_append_left _ front
  · rcases List.mem_cons.mp back with rfl | back
    · exact absurd rfl ne
    · exact List.mem_append_right _ back

theorem forall_mem_replace {α : Type} {P Q : α → Prop} {before after : List α} {old new : α}
    (all : ∀ a ∈ before ++ old :: after, P a) (here : P old → Q new) (others : ∀ a, P a → Q a) :
    ∀ a ∈ before ++ new :: after, Q a := by
  obtain ⟨front, back⟩ := List.forall_mem_append.mp all
  obtain ⟨this, back⟩ := List.forall_mem_cons.mp back
  refine List.forall_mem_append.mpr ⟨fun a mem => others a (front a mem), ?_⟩
  exact List.forall_mem_cons.mpr ⟨here this, fun a mem => others a (back a mem)⟩

theorem Effect.waiting (effect : t.Effect operation t') (registers : t.Registers)
    (serves : t.Serves) : ∀ waiter ∈ t'.waiters, t'.Waiting waiter := by
  have waiting := serves.waiting
  cases effect with
  | still => exact waiting
  | enqueue =>
    exact fun waiter waits =>
      (waiting waiter waits).keep [_] rfl rfl (fun _ mem => mem) (Nat.le_refl _)
  | pop =>
    exact fun waiter waits =>
      (waiting waiter waits).keep [_] rfl rfl (fun _ mem => .tail _ mem) (Nat.le_refl _)
  | remove =>
    exact fun waiter waits =>
      (waiting waiter waits).keep _ rfl rfl (fun _ mem => mem) (Nat.le_refl _)
  | close =>
    exact fun waiter waits =>
      (waiting waiter waits).keep _ rfl rfl (fun _ mem => mem) (Nat.le_succ _)
  | take =>
    refine fun waiter waits =>
      (waiting waiter waits).keep [_] rfl rfl (fun run mem => ?_) (Nat.le_refl _)
    rcases List.mem_append.mp mem with inTurn | inPlace
    · exact List.mem_append_left _ inTurn
    · exact List.mem_append_right _ (List.mem_append_left _ inPlace)
  | @finish before after run running =>
    refine fun waiter waits => (waiting waiter waits).ended registers rfl
      (t.queue.count_complete run.event.tag waiter.tag) (fun other mem ne => ?_) (Nat.succ_pos _)
    rcases List.mem_append.mp mem with inTurn | inPlace
    · exact List.mem_append_left _ (mem_working_of_split other ne (running ▸ inTurn))
    · exact List.mem_append_right _ inPlace
  | @release before after run running =>
    refine fun waiter waits => (waiting waiter waits).ended registers rfl
      (t.queue.count_complete run.event.tag waiter.tag) (fun other mem ne => ?_) (Nat.succ_pos _)
    rcases List.mem_append.mp mem with inTurn | inPlace
    · exact List.mem_append_left _ inTurn
    · exact List.mem_append_right _ (mem_working_of_split other ne (running ▸ inPlace))
  | @wait tag thread busy =>
    intro waiter waits
    rcases List.mem_append.mp waits with known | newest
    · exact (waiting waiter known).keep [] rfl rfl (fun _ mem => mem) (Nat.le_refl _)
    · rw [List.mem_singleton.mp newest]
      have all : t.queue.completed.count tag = t.log.countP (Deed.ends tag) :=
        (registers.completed tag).trans (countP_ends tag t.log).symm
      refine ⟨Nat.le_refl _, ?_, fun _ => (serves.single.inProgress registers).mp busy,
        fun more => absurd rfl more⟩
      simp only [Nat.sub_self, List.drop_zero]
      exact all
  | signal =>
    intro waiter waits
    obtain ⟨sleeper, known, rfl⟩ := List.mem_map.mp waits
    exact (waiting sleeper known).change false rfl rfl rfl nofun
  | wake those =>
    rw [those] at waiting
    exact forall_mem_replace waiting (fun waits => waits.change false rfl rfl rfl nofun)
      fun _ waits => waits.keep [] rfl rfl (fun _ mem => mem) (Nat.le_refl _)
  | sleep those still =>
    rw [those] at waiting
    exact forall_mem_replace waiting (fun waits => waits.change true rfl rfl rfl fun _ => still)
      fun _ waits => waits.keep [] rfl rfl (fun _ mem => mem) (Nat.le_refl _)
  | @answer before after waiter those done =>
    have rest : (before ++ after).Sublist t.waiters := by
      rw [those]
      exact sublist_split before waiter after
    exact fun other known => (waiting other (rest.subset known)).keep [_] rfl rfl
      (fun _ mem => mem) (Nat.le_refl _)

theorem Effect.honest (effect : t.Effect operation t') (registers : t.Registers)
    (serves : t.Serves) : Honest t'.log := by
  have honest := serves.honest
  cases effect with
  | still | wait | signal | wake | sleep => exact honest
  | enqueue | pop | finish | take | release => exact ⟨trivial, honest⟩
  | remove | close => exact honest_departures honest
  | @answer before after waiter those done =>
    have waiting := serves.waiting waiter (by simp [those])
    exact ⟨waiting.exists_end registers (by simpa [Waiter.waits] using done), honest⟩

theorem Leads.serves (leads : Leads Discipline.oneByOne t t') (registers : t.Registers)
    (serves : t.Serves) : t'.Serves :=
  And.right <| leads.invariant (P := fun t => t.Registers ∧ t.Serves) ⟨registers, serves⟩
    fun both allowed effect => ⟨effect.registers both.1, effect.single allowed both.2.single,
      effect.waiting both.1 both.2, effect.honest both.1 both.2⟩

/-- Only an event of which no run is at work is taken out to be run in place. -/
theorem Serves.idle (serves : t.Serves) (registers : t.Registers) {reentrant : Bool} {thread : Nat}
    {queue : Queue Work} (taken : t.queue.flush tag reentrant thread = (.take, queue)) :
    ∀ run ∈ t.working, run.event.tag ≠ tag := by
  rcases t.queue.flush_cases tag reentrant thread with ⟨-, eq⟩ | ⟨-, -, eq⟩ |
    ⟨-, idle, _⟩ | ⟨-, -, -, eq⟩
  · simp [eq] at taken
  · simp [eq] at taken
  · intro run atWork tagged
    have busy := (serves.single.inProgress registers).mpr ⟨run, atWork, tagged⟩
    cases idle.symm.trans busy
  · simp [eq] at taken

/-- The end of a run in place takes its entry out of the registry, and no other. -/
theorem Registers.perm_release (registers : t.Registers) {run : Run Work} (live : run ∈ t.inPlace) :
    t.queue.inlineRuns.Perm (run.entry :: Queue.unregister t.queue.inlineRuns run.entry) ∧
    ∀ entry ∈ Queue.unregister t.queue.inlineRuns run.entry, entry.1 ≠ run.event.tag := by
  have mem : run.entry ∈ t.queue.inlineRuns :=
    registers.registered.mem_iff.mpr (List.mem_map_of_mem live)
  have split := Queue.perm_unregister mem
  have tags : ((t.inPlace.map Run.entry).map Prod.fst).Nodup := by
    rw [List.map_map]
    exact registers.nodup
  have distinct := ((registers.registered.symm.trans split).map Prod.fst).nodup tags
  refine ⟨split, fun entry rest same => (List.nodup_cons.mp distinct).1 ?_⟩
  exact List.mem_map.mpr ⟨entry, rest, same⟩

/-- Where events are taken out one by one: (1) an event is run in place only while no other run of
its tag is at work, and the end of such a run is entered once; (2) who has waited goes on after a run
that ended meanwhile; (3) who waits has a run to wait for, or is awake, or is going to be woken. -/
theorem flush_safe (reaches : Reaches Discipline.oneByOne t) :
    ((∀ tag reentrant thread queue, t.queue.flush tag reentrant thread = (.take, queue) →
        ∀ run ∈ t.working, run.event.tag ≠ tag) ∧
      t.inPlace.Pairwise (fun a b => a.event.tag ≠ b.event.tag) ∧
      ∀ i run, t.inPlace[i]? = some run → ∃ t', t.step (.release i) = some t' ∧
        t.queue.inlineRuns.Perm (run.entry :: t'.queue.inlineRuns) ∧
        (∀ entry ∈ t'.queue.inlineRuns, entry.1 ≠ run.event.tag) ∧
        ∀ tag, t'.queue.completed.count tag =
          t.queue.completed.count tag + if run.event.tag = tag then 1 else 0) ∧
    (∀ after before tag n, t.log = after ++ .answered tag n :: before →
      ∃ deed ∈ since before n, deed.ends tag) ∧
    ∀ waiter ∈ t.waiters,
      (t.queue.completed.count waiter.tag = waiter.seen →
        ∃ run ∈ t.working, run.event.tag = waiter.tag) ∧
      (t.queue.completed.count waiter.tag ≠ waiter.seen → waiter.asleep → 0 < t.signals) := by
  have registers := reaches.registers registers_empty
  have serves := reaches.serves registers_empty serves_empty
  refine ⟨⟨fun _ _ _ _ taken => serves.idle registers taken, registers.apart,
    fun i run found => ?_⟩, fun _ _ _ _ split => serves.honest.at split, fun waiter waits => ?_⟩
  · obtain ⟨split, others⟩ := registers.perm_release (List.mem_of_getElem? found)
    refine ⟨t.release run (t.inPlace.eraseIdx i), by simp [step, found], split, others, ?_⟩
    exact t.queue.count_complete run.event.tag
  · exact ⟨(serves.waiting waiter waits).working, (serves.waiting waiter waits).woken⟩

/-- Two threads wait for a repaint, and one of them has gone on. The next repaint is run in place, a
third thread waits for it, and the queue is closed. -/
def waitedTwice : List (Operation Unit) :=
  [.post .paint, .pop 0, .flush .paint false 1, .flush .paint false 2, .finish 0, .signal, .look 0,
    .post .paint, .flush .paint false 1, .flush .paint false 3, .close]

theorem waitedTwice_end :
    (({} : Traffic Unit).run Discipline.oneByOne waitedTwice).map
        (fun t => (t.waiters, t.queue.completed.count .paint, t.inPlace, t.log)) =
      some ([⟨.paint, 0, 2, false⟩, ⟨.paint, 1, 6, true⟩], 1, [⟨⟨2, .paint⟩, 1⟩],
        [.left .taken ⟨2, .paint⟩, .admitted ⟨2, .paint⟩, .answered .paint 2,
          .finished ⟨1, .paint⟩, .left .popped ⟨1, .paint⟩, .admitted ⟨1, .paint⟩]) :=
  rfl

theorem flush_safe_waitedTwice : ∃ t t' : Traffic Unit, Reaches Discipline.oneByOne t ∧
    t.inPlace = [⟨⟨2, .paint⟩, 1⟩] ∧ t.step (.release 0) = some t' ∧
    t.queue.inlineRuns.Perm ((.paint, 1) :: t'.queue.inlineRuns) ∧
    t'.queue.completed.count .paint = t.queue.completed.count .paint + 1 ∧
    (∃ after before, t.log = after ++ .answered .paint 2 :: before ∧
      ∃ deed ∈ since before 2, deed.ends .paint) ∧
    ∃ waiter ∈ t.waiters, t.queue.completed.count waiter.tag = waiter.seen ∧
      ∃ run ∈ t.working, run.event.tag = waiter.tag := by
  obtain ⟨t, made, ends⟩ := Option.map_eq_some_iff.mp waitedTwice_end
  simp only [Prod.mk.injEq] at ends
  obtain ⟨waiters, completed, inPlace, log⟩ := ends
  have reaches : Reaches Discipline.oneByOne t := leads_run made
  obtain ⟨⟨-, -, released⟩, answered, waiting⟩ := flush_safe reaches
  obtain ⟨t', ends, split, -, counted⟩ := released 0 ⟨⟨2, .paint⟩, 1⟩ (by simp [inPlace])
  have asleep : ⟨.paint, 1, 6, true⟩ ∈ t.waiters := by simp [waiters]
  have log : t.log = [.left .taken ⟨2, .paint⟩, .admitted ⟨2, .paint⟩] ++ .answered .paint 2 ::
      [.finished ⟨1, .paint⟩, .left .popped ⟨1, .paint⟩, .admitted ⟨1, .paint⟩] := log
  exact ⟨t, t', reaches, inPlace, ends, split, counted .paint,
    ⟨_, _, log, answered _ _ _ _ log⟩, _, asleep, completed, (waiting _ asleep).1 completed⟩

end Traffic

end Handset
