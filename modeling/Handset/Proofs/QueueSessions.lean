import Handset.Proofs.CanvasSessions
import Handset.Proofs.Delivery
import Handset.Session.Bare

/-! Sessions as traffic. What a session does to its queue is a run of operations, also where a
handler takes the next event out itself, fails, or faults. -/

namespace Handset

namespace Traffic

/-- Operations make the one of the other, and what was at work is at work again. -/
structure Goes (t t' : Traffic Job) : Prop where
  leads : Leads Discipline.free t t'
  inTurn : t'.inTurn = t.inTurn
  inPlace : t'.inPlace = t.inPlace

variable {t t₁ t' : Traffic Job}

theorem Goes.refl (t : Traffic Job) : t.Goes t :=
  ⟨.refl, rfl, rfl⟩

theorem Goes.trans (first : t.Goes t₁) (second : t₁.Goes t') : t.Goes t' where
  leads := first.leads.trans second.leads
  inTurn := second.inTurn.trans first.inTurn
  inPlace := second.inPlace.trans first.inPlace

end Traffic

variable {σ : Type} {s s' : Session σ}

/-- From traffic on the queue of the one session a run of operations leads to traffic on the queue
of the other. -/
def Carries (s s' : Session σ) : Prop :=
  ∀ t : Traffic Job, t.queue = s.queue → ∃ t', t.Goes t' ∧ t'.queue = s'.queue

theorem carries_of_queue (same : s'.queue = s.queue) : Carries s s' :=
  fun t h => ⟨t, .refl t, h.trans same.symm⟩

/-- One operation, after which the same is at work. -/
theorem carries_step (operation : Operation Job)
    (made : ∀ t : Traffic Job, t.queue = s.queue → ∃ t', t.step operation = some t' ∧
      t'.inTurn = t.inTurn ∧ t'.inPlace = t.inPlace ∧ t'.queue = s'.queue) : Carries s s' := by
  intro t h
  obtain ⟨t', step, inTurn, inPlace, queue⟩ := made t h
  exact ⟨t', ⟨.one rfl step, inTurn, inPlace⟩, queue⟩

/-- What is popped is finished once it is handled. -/
theorem carries_handled {event : Event Job} {queue : Queue Job}
    (first : s.queue.next? = some (event, queue)) (handles : Carries { s with queue } s') :
    Carries s { s' with queue := s'.queue.finish event.tag } := by
  intro t h
  let run : Run Job := ⟨event, s.thread⟩
  let t₁ : Traffic Job := { t with
    queue, inTurn := run :: t.inTurn, log := .left .popped event :: t.log }
  have popped : t.step (.pop s.thread) = some t₁ := by
    simp only [Traffic.step, h, first]
    rfl
  obtain ⟨t₂, goes, handled⟩ := handles t₁ rfl
  have newest : t₂.inTurn = run :: t.inTurn := goes.inTurn
  have finished : t₂.step (.finish s.thread) = some (t₂.finish run t.inTurn) := by
    simp [Traffic.step, newest, run]
  refine ⟨t₂.finish run t.inTurn, ⟨?_, rfl, goes.inPlace⟩, ?_⟩
  · exact ((Traffic.Leads.one rfl popped).trans goes.leads).step rfl finished
  · rw [← handled]
    rfl

/-- What is taken is released once it has run. -/
theorem carries_taken {tag : EventTag} {reentrant : Bool} {queue : Queue Job}
    (flushed : s.queue.flush tag reentrant s.thread = (.take, queue))
    (runs : Carries { s with queue } s') :
    Carries s { s' with queue := s'.queue.finishInline tag s.thread } := by
  intro t h
  obtain ⟨event, found⟩ := Queue.exists_of_flush_take flushed
  have tagged : event.tag = tag := by simpa using List.find?_some found
  let run : Run Job := ⟨event, s.thread⟩
  let t₁ : Traffic Job := { t with
    queue, inPlace := t.inPlace ++ [run], log := .left .taken event :: t.log }
  have taken : t.step (.flush tag reentrant s.thread) = some t₁ := by
    simp only [Traffic.step, Traffic.flush, h, flushed, found]
    rfl
  obtain ⟨t₂, goes, same⟩ := runs t₁ rfl
  have live : t₂.inPlace = t.inPlace ++ [run] := goes.inPlace
  have released : t₂.step (.release t.inPlace.length) = some (t₂.release run t.inPlace) := by
    simp [Traffic.step, live, List.eraseIdx_append_of_length_le]
  refine ⟨t₂.release run t.inPlace, ⟨?_, goes.inTurn, rfl⟩, ?_⟩
  · exact ((Traffic.Leads.one rfl taken).trans goes.leads).step rfl released
  · rw [Traffic.release, same, tagged]

theorem enduring_carries : Enduring (Carries : Session σ → Session σ → Prop) where
  quiet _ queue := carries_of_queue queue
  trans first second := by
    intro t h
    obtain ⟨t₁, goes, queue⟩ := first t h
    obtain ⟨t', goes', queue'⟩ := second t₁ queue
    exact ⟨t', goes.trans goes', queue'⟩
  post s kind := by
    refine carries_step (.post kind) fun t h =>
      ⟨t.post kind, rfl, t.post_inTurn kind, t.post_inPlace kind, ?_⟩
    rw [t.post_queue, h]
  close s := by
    refine carries_step .close fun t h => ⟨t.close, rfl, t.close_inTurn, t.close_inPlace, ?_⟩
    rw [t.close_queue, h]
  remove s p := by
    refine carries_step (.remove p) fun t h => ⟨_, rfl, rfl, rfl, ?_⟩
    exact congrArg (fun q => (q.remove p).2) h
  handled := carries_handled
  taken := carries_taken

namespace Host

variable {host : Host σ}

/-- What is done with an event once it is not held any more. -/
theorem obeys_recorded {R : Session Unit → Session Unit → Prop} (enduring : Enduring R)
    {runner : Runner Unit} (steps : runner.Obeys R) (event : Event Job) :
    Handset.Obeys R (do
      Act.note (.event event)
      match event.kind with
      | .task job => Act.runJob runner job
      | _ => pure ()
      Act.runRule runner (.event event.tag) event.kind.keyCode? : Act Unit (Option Failure)) := by
  apply (obeys_note enduring _).bind enduring
  intro _
  have ruled := obeys_runRule enduring steps (.event event.tag) event.kind.keyCode?
  split
  · exact (obeys_runJob enduring steps _).bind enduring fun _ => ruled
  · exact ruled

/-- A session of a queue alone keeps to whatever the engine keeps to. -/
theorem obeys_bare {R : Session Unit → Session Unit → Prop} (enduring : Enduring R) :
    bare.Obeys R where
  handle steps event := by
    have recorded := obeys_recorded enduring steps event
    dsimp only [bare, handleBare] at recorded ⊢
    split
    · exact (obeys_holdPending enduring steps).bind enduring fun _ => recorded
    · exact recorded
  perform _ _ := obeys_pure enduring _
  service _ := obeys_pure enduring ()

/-- The queue of a session is one that operations reach, with nothing at work in the end. -/
theorem session_reaches_queue (obeys : host.Obeys Carries) (stage : σ) (rules : List Rule)
    (depth : Nat) (steps : List Step) :
    ∃ t, Traffic.Reaches Discipline.free t ∧ t.inTurn = [] ∧ t.inPlace = [] ∧
      t.queue = ((steps.mapM (host.step depth)).run { stage, rules }).2.queue := by
  have start : ({} : Traffic Job).queue = ({ stage, rules } : Session σ).queue := rfl
  obtain ⟨t, goes, queue⟩ := obeys_run enduring_carries obeys depth steps _ {} start
  exact ⟨t, goes.leads, goes.inTurn, goes.inPlace, queue⟩

/-- After a session, whatever its handlers did, what waits is in order. -/
theorem events_sorted (obeys : host.Obeys Carries) (stage : σ) (rules : List Rule) (depth : Nat)
    (steps : List Step) :
    ((steps.mapM (host.step depth)).run { stage, rules }).2.queue.events.Pairwise
      fun a b => a.id < b.id := by
  obtain ⟨t, reaches, -, -, queue⟩ := session_reaches_queue obeys stage rules depth steps
  rw [← queue]
  exact (reaches.inOrder Traffic.accounts_empty Traffic.inOrder_empty).waiting

theorem bare_carries : bare.Obeys Carries :=
  obeys_bare enduring_carries

theorem stage_carries : stage.Obeys Carries :=
  Stage.obeys_stage enduring_carries fun _ _ queue _ => carries_of_queue queue

end Host

end Handset
