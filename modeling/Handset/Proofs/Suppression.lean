import Handset.Proofs.HeldKeys

/-! Game keys that are kept from being posted. Two runs of the same calls, one that posts game keys
and one that does not, say the same keys are held; the one posts what the other posts and the game
keys besides. Whether a key is a game key is a matter of the key that was struck, and not of the code
that the keyboard layout gives it. -/

namespace Handset

/-- A key is struck, or the keyboard gets another layout. -/
inductive KeyCall
  | strike (stroke : KeyStroke)
  | setLayout (layout : KeyLayout)
  deriving DecidableEq, Repr

/-- A stroke with the event that it is to be posted as. -/
structure Delivery where
  stroke : KeyStroke
  kind : EventKind Job

namespace KeyCall

def request : KeyCall → Request
  | .strike stroke => .key stroke.action stroke.code
  | .setLayout layout => .setKeyLayout layout

/-- The layout after the call. -/
def next (layout : KeyLayout) : KeyCall → KeyLayout
  | .strike _ => layout
  | .setLayout layout => layout

/-- The event has the code that the layout of that moment gives the key. -/
def deliveries (layout : KeyLayout) : KeyCall → List Delivery
  | .strike stroke => [⟨stroke, .key stroke.action (layout.convert stroke.code)⟩]
  | .setLayout _ => []

/-- The strokes of some calls, in order, each with its event. -/
def allDeliveries : KeyLayout → List KeyCall → List Delivery
  | _, [] => []
  | layout, call :: calls => call.deliveries layout ++ allDeliveries (call.next layout) calls

end KeyCall

/-- The key that was struck has no bit among the held keys. -/
def Delivery.plain (delivery : Delivery) : Bool :=
  GameAction.ofKey? delivery.stroke.code == none

/-- The stroke is posted while game keys are suppressed, or while they are not. -/
def Delivery.posted (suppressed : Bool) (delivery : Delivery) : Bool :=
  !suppressed || delivery.plain

theorem HeldKeys.isEmpty_ofKey (code : Int) :
    (HeldKeys.ofKey code).isEmpty = (GameAction.ofKey? code == none) := by
  unfold HeldKeys.ofKey
  cases GameAction.ofKey? code with
  | none => rfl
  | some action => cases action <;> rfl

/-- What is let in of what is to be posted: all of it, unless the queue is closed. -/
def letIn (closed : Bool) (deliveries : List Delivery) : List Delivery :=
  if closed then [] else deliveries

@[simp] theorem letIn_nil (closed : Bool) : letIn closed [] = [] := by
  cases closed <;> rfl

@[simp] theorem letIn_append (closed : Bool) (early late : List Delivery) :
    letIn closed (early ++ late) = letIn closed early ++ letIn closed late := by
  cases closed <;> rfl

/-- What a call makes of a canvas. -/
def KeyCall.change : KeyCall → Canvas → Canvas
  | .strike stroke, canvas => canvas.recordKey stroke.action stroke.code
  | .setLayout keyLayout, canvas => { canvas with keyLayout }

namespace Stage

/-- Makes a call, and asks which keys are held then. -/
def callAndAsk (runner : Runner Stage) (call : KeyCall) : Act Answer := do
  let _ ← perform runner call.request
  perform runner .heldKeys

/-- Makes the calls one after the other, and asks after each which keys are held. -/
def reportHeld (runner : Runner Stage) (calls : List KeyCall) : Act (List Answer) :=
  calls.mapM (callAndAsk runner)

variable {s s' t : Session Stage} {runner : Runner Stage}

/-- The queue of the session has let in events of these kinds. -/
def Admits (s s' : Session Stage) (kinds : List (EventKind Job)) : Prop :=
  ∃ admitted, s'.queue.events = s.queue.events ++ admitted ∧ admitted.map Event.kind = kinds

theorem Admits.of_queue (same : s'.queue = s.queue) : Admits s s' [] :=
  ⟨[], by rw [same, List.append_nil], rfl⟩

theorem Admits.trans {kinds more : List (EventKind Job)} (first : Admits s s' kinds)
    (second : Admits s' t more) : Admits s t (kinds ++ more) := by
  obtain ⟨early, events, kinds⟩ := first
  obtain ⟨late, events', more⟩ := second
  refine ⟨early ++ late, ?_, ?_⟩
  · rw [events', events, List.append_assoc]
  · rw [List.map_append, kinds, more]

/-- A key that is posted is let in, whatever is queued. -/
theorem admits_key {action : KeyAction} {code : Int}
    (posted : t.queue = (s.queue.post (.key action code)).2) :
    t.queue.closed = s.queue.closed ∧
      Admits s t (if s.queue.closed then [] else [.key action code]) := by
  rcases s.queue.post_cases (.key action code) with ⟨isClosed, eq⟩ | ⟨-, paint, -⟩ | ⟨isOpen, -, eq⟩
  · have same : t.queue = s.queue := by rw [posted, eq]
    rw [if_pos isClosed, same]
    exact ⟨rfl, .of_queue same⟩
  · cases paint
  · rw [isOpen, posted, eq]
    exact ⟨isOpen, [_], by rw [posted, eq]; rfl, rfl⟩

theorem run_callAndAsk_strike {stroke : KeyStroke}
    (ran : (postKey stroke.action stroke.code).run.run s = (.ok (), s')) :
    (callAndAsk runner (.strike stroke)).run.run s =
      (.ok (.heldKeys s'.stage.canvas.held), s') := by
  simp only [callAndAsk, KeyCall.request, perform, done, run_bind, ran]
  rfl

/-- A stroke is posted unless it is one on a game key and these are suppressed. -/
theorem run_callAndAsk (s : Session Stage) (call : KeyCall) : ∃ s',
    (callAndAsk runner call).run.run s = (.ok (.heldKeys s'.stage.canvas.held), s') ∧
    s'.stage.canvas = call.change s.stage.canvas ∧ s'.queue.closed = s.queue.closed ∧
    Admits s s' (((letIn s.queue.closed (call.deliveries s.stage.canvas.keyLayout)).filter
      (Delivery.posted s.stage.canvas.suppressGameKeys)).map Delivery.kind) := by
  cases call with
  | setLayout layout =>
    refine ⟨_, rfl, rfl, rfl, ?_⟩
    rw [KeyCall.deliveries, letIn_nil]
    exact .of_queue rfl
  | strike stroke =>
    let canvas := s.stage.canvas.recordKey stroke.action stroke.code
    let struck : Session Stage := { s with stage := { s.stage with canvas } }
    let delivery : Delivery :=
      ⟨stroke, .key stroke.action (s.stage.canvas.keyLayout.convert stroke.code)⟩
    have ran : (postKey stroke.action stroke.code).run.run s =
        (Act.postAll (canvas.keyEvents stroke.action stroke.code)).run.run struck := rfl
    have plain : (!(HeldKeys.ofKey stroke.code).isEmpty && canvas.suppressGameKeys) =
        !delivery.posted s.stage.canvas.suppressGameKeys := by
      rw [HeldKeys.isEmpty_ofKey, Delivery.posted, Bool.not_or, Bool.not_not, Bool.and_comm]
      rfl
    rw [Canvas.keyEvents, plain] at ran
    cases posted : delivery.posted s.stage.canvas.suppressGameKeys with
    | false =>
      rw [posted] at ran
      refine ⟨struck, run_callAndAsk_strike ran, rfl, rfl, ?_⟩
      have none : (letIn s.queue.closed [delivery]).filter
          (Delivery.posted s.stage.canvas.suppressGameKeys) = [] := by
        cases s.queue.closed <;> simp [letIn, posted]
      rw [KeyCall.deliveries, none]
      exact .of_queue rfl
    | true =>
      rw [posted] at ran
      let s' : Session Stage := { struck with queue := (s.queue.post delivery.kind).2 }
      obtain ⟨closed, admits⟩ := admits_key (s := s) (t := s') rfl
      refine ⟨s', run_callAndAsk_strike ran, rfl, closed, ?_⟩
      have one : ((letIn s.queue.closed [delivery]).filter
          (Delivery.posted s.stage.canvas.suppressGameKeys)).map Delivery.kind =
            if s.queue.closed then [] else [delivery.kind] := by
        cases s.queue.closed <;> simp [letIn, posted]
      rw [KeyCall.deliveries, one]
      exact admits

/-- Two sessions that differ in their queues, which are both open or both closed, and in this: the
one suppresses game keys and the other does not. -/
structure Twins (on off : Session Stage) : Prop where
  canvas : on.stage.canvas = { off.stage.canvas with suppressGameKeys := true }
  posts : off.stage.canvas.suppressGameKeys = false
  closed : on.queue.closed = off.queue.closed

variable {on off : Session Stage}

/-- A call leaves twins behind, and both give the same answer. -/
theorem Twins.run_callAndAsk (twins : Twins on off) (call : KeyCall) : ∃ held on' off',
    (callAndAsk runner call).run.run on = (.ok (.heldKeys held), on') ∧
    (callAndAsk runner call).run.run off = (.ok (.heldKeys held), off') ∧
    Twins on' off' ∧ off'.stage.canvas.keyLayout = call.next off.stage.canvas.keyLayout ∧
    off'.queue.closed = off.queue.closed ∧
    let sent := letIn off.queue.closed (call.deliveries off.stage.canvas.keyLayout)
    Admits off off' (sent.map Delivery.kind) ∧
    Admits on on' ((sent.filter Delivery.plain).map Delivery.kind) := by
  obtain ⟨on', ran, canvas, closed, admits⟩ := Stage.run_callAndAsk on call
  obtain ⟨off', ran', canvas', closed', admits'⟩ := Stage.run_callAndAsk off call
  rw [twins.canvas] at canvas admits
  have changed : call.change { off.stage.canvas with suppressGameKeys := true } =
      { call.change off.stage.canvas with suppressGameKeys := true } := by cases call <;> rfl
  have same : on'.stage.canvas = { off'.stage.canvas with suppressGameKeys := true } := by
    rw [canvas, canvas', changed]
  have posts : off'.stage.canvas.suppressGameKeys = false := by
    rw [canvas', ← twins.posts]
    cases call <;> rfl
  refine ⟨_, on', off', ran, ?_, ⟨same, posts, ?_⟩, ?_, closed', ?_, ?_⟩
  · rw [ran', same]
  · rw [closed, closed', twins.closed]
  · rw [canvas']
    cases call <;> rfl
  · have all (deliveries : List Delivery) :
        deliveries.filter (Delivery.posted off.stage.canvas.suppressGameKeys) = deliveries :=
      List.filter_eq_self.mpr fun delivery _ => by rw [twins.posts]; rfl
    rwa [all] at admits'
  · rw [twins.closed] at admits
    exact admits

theorem run_reportHeld_cons {call : KeyCall} {calls : List KeyCall} {answer : Answer}
    {answers : List Answer} (first : (callAndAsk runner call).run.run s = (.ok answer, s'))
    (rest : (reportHeld runner calls).run.run s' = (.ok answers, t)) :
    (reportHeld runner (call :: calls)).run.run s = (.ok (answer :: answers), t) := by
  unfold reportHeld at rest ⊢
  simp only [List.mapM_cons, run_bind, first, rest]
  rfl

/-- Calls leave both with the same answers. The one has let in what the other has, but for the game
keys. -/
theorem Twins.run_reportHeld (twins : Twins on off) (calls : List KeyCall) :
    ∃ (reports : List HeldKeys) (on' off' : Session Stage), reports.length = calls.length ∧
    (reportHeld runner calls).run.run on = (.ok (reports.map .heldKeys), on') ∧
    (reportHeld runner calls).run.run off = (.ok (reports.map .heldKeys), off') ∧
    let sent := letIn off.queue.closed (KeyCall.allDeliveries off.stage.canvas.keyLayout calls)
    Admits off off' (sent.map Delivery.kind) ∧
    Admits on on' ((sent.filter Delivery.plain).map Delivery.kind) := by
  induction calls generalizing on off with
  | nil =>
    refine ⟨[], on, off, rfl, rfl, rfl, ?_⟩
    rw [KeyCall.allDeliveries, letIn_nil]
    exact ⟨.of_queue rfl, .of_queue rfl⟩
  | cons call calls ih =>
    obtain ⟨held, on₁, off₁, first, first', twins, layout, closed, sent, plain⟩ :=
      twins.run_callAndAsk call
    obtain ⟨reports, on', off', length, rest, rest', more, morePlain⟩ := ih twins
    rw [layout, closed] at more morePlain
    refine ⟨held :: reports, on', off', congrArg (· + 1) length, run_reportHeld_cons first rest,
      run_reportHeld_cons first' rest', ?_, ?_⟩
    · rw [KeyCall.allDeliveries, letIn_append, List.map_append]
      exact sent.trans more
    · rw [KeyCall.allDeliveries, letIn_append, List.filter_append, List.map_append]
      exact plain.trans morePlain

/-- The session as it is while game keys are suppressed, or while they are not. -/
def suppressing (suppress : Bool) (s : Session Stage) : Session Stage :=
  { s with stage := { s.stage with
    canvas := { s.stage.canvas with suppressGameKeys := suppress } } }

/-- Whatever keys are struck and whatever layouts are set: with and without game keys, the same keys
are held after each call. Without, every stroke is let in as an event, if the queue is open, in the
order of the strokes and under the code of the layout of its moment. With game keys suppressed, just
those of these events are let in whose stroke is on no game key, whatever code the layout gives. -/
theorem suppression_delivers_less (s : Session Stage) (runner : Runner Stage)
    (calls : List KeyCall) : ∃ (reports : List HeldKeys) (on off : Session Stage),
    reports.length = calls.length ∧
    (reportHeld runner calls).run.run (suppressing true s) = (.ok (reports.map .heldKeys), on) ∧
    (reportHeld runner calls).run.run (suppressing false s) = (.ok (reports.map .heldKeys), off) ∧
    let sent := letIn s.queue.closed (KeyCall.allDeliveries s.stage.canvas.keyLayout calls)
    Admits s off (sent.map Delivery.kind) ∧
    Admits s on ((sent.filter Delivery.plain).map Delivery.kind) := by
  have twins : Twins (suppressing true s) (suppressing false s) := ⟨rfl, rfl, rfl⟩
  exact twins.run_reportHeld calls

/-- On this keyboard the left soft key has the code of an arrow, and is posted; the arrow is not. -/
example : ((KeyCall.allDeliveries .siemens [.strike ⟨.pressed, Key.softLeft⟩,
      .strike ⟨.pressed, Key.up⟩]).filter Delivery.plain).map Delivery.kind =
    [.key .pressed Key.up] :=
  rfl

end Stage

end Handset
