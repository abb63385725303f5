import Handset.Proofs.Delivery

/-! The event that the queue calls current. There is one slot for it: an event that is popped comes
into the slot and an end of a handler empties it, whatever else is at work. So the slot has the
event that is handled only as long as its handler has let no other event be handled. -/

namespace Handset

variable {Work : Type}

/-- What a deed leaves in the slot, if it touches the slot. -/
def Deed.slot? : Deed Work → Option (Option (Event Work))
  | .left .popped event => some (some event)
  | .finished _ => some none
  | _ => none

/-- The event in the slot after some deeds. -/
def slot (log : List (Deed Work)) : Option (Event Work) :=
  (log.findSome? Deed.slot?).join

/-- Only an event that is popped comes into the slot. -/
theorem slot_departures {exit : Exit} {events : List (Event Work)} (log : List (Deed Work))
    (apart : exit ≠ .popped) : slot (departures exit events ++ log) = slot log := by
  have untouched (event : Event Work) : (Deed.left exit event).slot? = none := by
    cases exit with
    | popped => exact absurd rfl apart
    | taken | removed | dropped => rfl
  induction events with
  | nil => rfl
  | cons event events ih =>
    rw [slot, departures, List.map_cons, List.cons_append, List.findSome?_cons, untouched event]
    exact ih

theorem Deed.slot?_eq_some {deed : Deed Work} {event : Event Work} :
    deed.slot? = some (some event) ↔ deed = .left .popped event := by
  cases deed with
  | left exit other => cases exit <;> simp [Deed.slot?]
  | admitted | finished | released | answered => simp [Deed.slot?]

namespace Traffic

variable {t t' : Traffic Work} {operation : Operation Work} {event : Event Work}

/-- The event was popped, and since then none was popped and no handler has ended. -/
def Undisturbed (t : Traffic Work) (event : Event Work) : Prop :=
  ∃ late early, t.log = late ++ .left .popped event :: early ∧ ∀ deed ∈ late, deed.slot? = none

theorem slot_eq_some : slot t.log = some event ↔ t.Undisturbed event := by
  rw [slot, Option.join_eq_some_iff, List.findSome?_eq_some_iff]
  constructor
  · intro found
    obtain ⟨late, deed, early, log, shown, untouched⟩ := found
    cases Deed.slot?_eq_some.mp shown
    exact ⟨late, early, log, untouched⟩
  · intro undisturbed
    obtain ⟨late, early, log, untouched⟩ := undisturbed
    exact ⟨late, _, early, log, rfl, untouched⟩

/-- The current event is the one in the slot, and its handler is the newest of those at work. -/
structure Slotted (t : Traffic Work) : Prop where
  current : t.queue.current = (slot t.log).map fun event => (event.tag, event.id)
  newest : ∀ event, slot t.log = some event → ∃ run rest, t.inTurn = run :: rest ∧ run.event = event

theorem slotted_empty : ({} : Traffic Work).Slotted :=
  ⟨rfl, nofun⟩

theorem Slotted.keep (slotted : t.Slotted) (log : slot t'.log = slot t.log)
    (current : t'.queue.current = t.queue.current) (inTurn : t'.inTurn = t.inTurn) :
    t'.Slotted where
  current := by rw [log, current, slotted.current]
  newest := by
    rw [log, inTurn]
    exact slotted.newest

theorem Effect.slotted (effect : t.Effect operation t') (slotted : t.Slotted) : t'.Slotted := by
  cases effect with
  | still | wait | signal | wake | sleep => exact slotted.keep rfl rfl rfl
  | enqueue | take | release | answer => exact slotted.keep rfl rfl rfl
  | remove => exact slotted.keep (slot_departures t.log nofun) rfl rfl
  | close => exact slotted.keep (slot_departures t.log nofun) rfl rfl
  | @pop thread event rest isOpen events =>
    refine ⟨rfl, ?_⟩
    intro newest found
    cases found
    exact ⟨_, _, rfl, rfl⟩
  | finish => exact ⟨rfl, nofun⟩

theorem Leads.slotted {rule : Discipline Work} (leads : Leads rule t t') (slotted : t.Slotted) :
    t'.Slotted :=
  leads.invariant slotted fun slotted _ effect => effect.slotted slotted

/-- Two events that were let in under one number are the same. -/
theorem Accounts.eq_of_id (accounts : t.Accounts) {a b : Event Work} {fate fate' : Fate}
    (ha : (a, fate) ∈ t.whereabouts) (hb : (b, fate') ∈ t.whereabouts) (same : a.id = b.id) :
    a = b := by
  have apart := accounts.distinct
  have ha := accounts.mem_whereabouts.mpr ⟨fate, ha⟩
  have hb := accounts.mem_whereabouts.mpr ⟨fate', hb⟩
  generalize t.log.filterMap Deed.admitted? = events at apart ha hb
  induction apart with
  | nil => cases ha
  | cons newest _ ih =>
    cases ha with
    | head =>
      cases hb with
      | head => rfl
      | tail _ hb => exact absurd same (Nat.ne_of_gt (newest b hb))
    | tail _ ha =>
      cases hb with
      | head => exact absurd same (Nat.ne_of_lt (newest a ha))
      | tail _ hb => exact ih ha hb

/-- Whatever the threads do, the current event is one that is handled exactly as long as nothing was
popped and no handler has ended since it was popped. After that there is none, though its handler is
still the newest at work, and there is none either while no handler is at work. -/
theorem current_iff (reaches : Reaches Discipline.free t) :
    (∀ run ∈ t.inTurn,
      t.queue.current = some (run.event.tag, run.event.id) ↔ t.Undisturbed run.event) ∧
    (∀ run rest, t.inTurn = run :: rest → ¬ t.Undisturbed run.event → t.queue.current = none) ∧
    (t.inTurn = [] → t.queue.current = none) := by
  have slotted := reaches.slotted slotted_empty
  have accounts := reaches.accounts accounts_empty
  have handles := reaches.handles handles_empty
  refine ⟨?_, ?_, ?_⟩
  · intro run working
    rw [slotted.current, ← slot_eq_some]
    constructor
    · intro now
      obtain ⟨event, shown, same⟩ := Option.map_eq_some_iff.mp now
      -- The numbers are the same, and an event has its number for itself.
      obtain ⟨newest, rest, inTurn, rfl⟩ := slotted.newest event shown
      have here : newest ∈ t.inTurn := by simp [inTurn]
      have one := gone_mem_whereabouts.mpr (handles.popped here)
      have other := gone_mem_whereabouts.mpr (handles.popped working)
      rw [shown, accounts.eq_of_id one other (congrArg Prod.snd same)]
    · intro shown
      rw [shown]
      rfl
  · intro run rest inTurn disturbed
    rw [slotted.current]
    cases shown : slot t.log with
    | none => rfl
    | some event =>
      obtain ⟨newest, older, stack, rfl⟩ := slotted.newest event shown
      rw [inTurn] at stack
      cases stack
      exact absurd (slot_eq_some.mp shown) disturbed
  · intro none
    rw [slotted.current]
    cases shown : slot t.log with
    | none => rfl
    | some event =>
      obtain ⟨newest, older, stack, -⟩ := slotted.newest event shown
      rw [none] at stack
      cases stack

/-- The handler of a key takes the next event out itself; the handler of that one ends. -/
def nestedThenBack : List (Operation Unit) :=
  [.post (.key .pressed 53), .post .showNotify, .pop 0, .pop 0, .finish 0]

theorem nestedThenBack_end :
    (({} : Traffic Unit).run Discipline.free nestedThenBack).map
        (fun t => (t.inTurn, t.queue.current)) =
      some ([⟨⟨1, .key .pressed 53⟩, 0⟩], none) :=
  rfl

theorem nestedThenBack_nested :
    (({} : Traffic Unit).run Discipline.free (nestedThenBack.take 4)).map
        (fun t => (t.inTurn, t.log)) =
      some ([⟨⟨2, .showNotify⟩, 0⟩, ⟨⟨1, .key .pressed 53⟩, 0⟩],
        [.left .popped ⟨2, .showNotify⟩, .left .popped ⟨1, .key .pressed 53⟩,
          .admitted ⟨2, .showNotify⟩, .admitted ⟨1, .key .pressed 53⟩]) :=
  rfl

theorem current_iff_nestedThenBack : ∃ t t' : Traffic Unit,
    Reaches Discipline.free t ∧ t.queue.current = some (.showNotify, 2) ∧
    Reaches Discipline.free t' ∧ t'.inTurn = [⟨⟨1, .key .pressed 53⟩, 0⟩] ∧
    ¬ t'.Undisturbed ⟨1, .key .pressed 53⟩ := by
  obtain ⟨t, made, ends⟩ := Option.map_eq_some_iff.mp nestedThenBack_nested
  obtain ⟨t', made', ends'⟩ := Option.map_eq_some_iff.mp nestedThenBack_end
  obtain ⟨inTurn, log⟩ := Prod.mk.inj ends
  obtain ⟨inTurn', current'⟩ := Prod.mk.inj ends'
  have shown : t.Undisturbed ⟨2, .showNotify⟩ := by
    refine ⟨[], [.left .popped ⟨1, .key .pressed 53⟩, .admitted ⟨2, .showNotify⟩,
      .admitted ⟨1, .key .pressed 53⟩], ?_, ?_⟩
    · exact log
    · intro deed mem
      cases mem
  refine ⟨t, t', leads_run made, ?_, leads_run made', inTurn', ?_⟩
  · exact ((current_iff (leads_run made)).1 ⟨⟨2, .showNotify⟩, 0⟩ (by simp [inTurn])).mpr shown
  · intro undisturbed
    have now := ((current_iff (leads_run made')).1 ⟨_, 0⟩ (by simp [inTurn'])).mpr undisturbed
    rw [current'] at now
    cases now

/-- Though the handler of the key is at work and has control, no event is current. -/
theorem current_lost : ¬ ∀ t : Traffic Unit, Reaches Discipline.free t →
    (∀ run rest, t.inTurn = run :: rest →
      t.queue.current = some (run.event.tag, run.event.id)) ∧
    (t.inTurn = [] → t.queue.current = none) := by
  intro always
  obtain ⟨t, made, ends⟩ := Option.map_eq_some_iff.mp nestedThenBack_end
  obtain ⟨inTurn, current⟩ := Prod.mk.inj ends
  have now := (always t (leads_run made)).1 _ _ inTurn
  rw [current] at now
  cases now

end Traffic

end Handset
