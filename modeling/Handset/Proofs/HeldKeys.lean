import Handset.Proofs.CanvasSessions
import Mathlib.Data.List.Induction

/-! Game keys that are held, from the strokes that came before. Several keys share a bit, and the
bits are all that is kept: a bit follows the last stroke on any of its keys, and not the keys one by
one. -/

namespace Handset

/-- A key of the handset is pressed, repeated or released. -/
structure KeyStroke where
  action : KeyAction
  code : Int
  deriving DecidableEq, Repr

namespace KeyStroke

/-- The last stroke on a key of some kind. -/
def last? (kind : Int → Bool) (strokes : List KeyStroke) : Option KeyStroke :=
  strokes.reverse.find? fun stroke => kind stroke.code

/-- The last stroke on a key of the kind was a press or a repeat. -/
def LeavesDown (kind : Int → Bool) (strokes : List KeyStroke) : Prop :=
  ∃ stroke, last? kind strokes = some stroke ∧ stroke.action ≠ .released

/-- The last stroke on a key of the kind was a release. -/
def LeavesUp (kind : Int → Bool) (strokes : List KeyStroke) : Prop :=
  ∃ stroke, last? kind strokes = some stroke ∧ stroke.action = .released

/-- The key itself is held. -/
def Down (strokes : List KeyStroke) (code : Int) : Prop :=
  LeavesDown (· == code) strokes

/-- The kind of the keys that share the bit of a game action. -/
def sharing (action : GameAction) (code : Int) : Bool :=
  GameAction.ofKey? code == some action

/-- Some key with the bit of the action is held. -/
def SomeDown (strokes : List KeyStroke) (action : GameAction) : Prop :=
  ∃ code, GameAction.ofKey? code = some action ∧ Down strokes code

variable {kind narrow : Int → Bool} {strokes : List KeyStroke} {stroke : KeyStroke}
  {action : GameAction}

theorem last?_append (strokes : List KeyStroke) (stroke : KeyStroke) :
    last? kind (strokes ++ [stroke]) =
      if kind stroke.code then some stroke else last? kind strokes := by
  rw [last?, List.reverse_append, List.reverse_singleton, List.singleton_append,
    List.find?_cons]
  cases own : kind stroke.code with
  | true => rfl
  | false => rfl

theorem last?_kind (last : last? kind strokes = some stroke) : kind stroke.code = true := by
  have own := List.find?_some last
  exact own

/-- The last stroke on some keys is the last on fewer of them, if it is on one of these. -/
theorem last?_narrow (last : last? kind strokes = some stroke)
    (fewer : ∀ code, narrow code = true → kind code = true) (own : narrow stroke.code = true) :
    last? narrow strokes = some stroke := by
  obtain ⟨-, later, earlier, split, others⟩ := List.find?_eq_some_iff_append.mp last
  refine List.find?_eq_some_iff_append.mpr ⟨own, later, earlier, split, fun other among => ?_⟩
  cases mine : narrow other.code with
  | false => rfl
  | true => simpa [fewer _ mine] using others other among

theorem exists_last? (among : stroke ∈ strokes) (own : kind stroke.code = true) :
    ∃ last, last? kind strokes = some last := by
  have found : (last? kind strokes).isSome := by
    rw [last?, List.find?_isSome]
    exact ⟨stroke, List.mem_reverse.mpr among, own⟩
  exact Option.isSome_iff_exists.mp found

theorem not_leavesUp (down : LeavesDown kind strokes) : ¬ LeavesUp kind strokes := by
  rintro ⟨stroke, last, released⟩
  obtain ⟨stroke', last', pressed⟩ := down
  rw [Option.some.inj (last'.symm.trans last)] at pressed
  exact pressed released

/-- A key whose stroke was the last on all keys with its bit is held itself. -/
theorem someDown_of_leavesDown (down : LeavesDown (sharing action) strokes) :
    SomeDown strokes action := by
  obtain ⟨stroke, last, pressed⟩ := down
  have own : GameAction.ofKey? stroke.code = some action := beq_iff_eq.mp (last?_kind last)
  refine ⟨stroke.code, own, stroke, last?_narrow last (fun code same => ?_) (beq_self_eq_true _),
    pressed⟩
  rw [beq_iff_eq.mp same]
  exact last?_kind last

/-- Where a key with the bit is held, the last stroke on all of them leaves it down or is a
release. -/
theorem leavesDown_or_leavesUp (down : SomeDown strokes action) :
    LeavesDown (sharing action) strokes ∨ LeavesUp (sharing action) strokes := by
  obtain ⟨code, own, stroke, last, -⟩ := down
  have among : stroke ∈ strokes := List.mem_reverse.mp (List.mem_of_find?_eq_some last)
  have same : stroke.code = code := beq_iff_eq.mp (last?_kind last)
  have shares : sharing action stroke.code = true := by rw [same, sharing, own, beq_self_eq_true]
  obtain ⟨stroke', last'⟩ := exists_last? among shares
  by_cases released : stroke'.action = .released
  · exact .inr ⟨stroke', last', released⟩
  · exact .inl ⟨stroke', last', released⟩

end KeyStroke

namespace HeldKeys

/-- The keys are held whose bits are set. -/
theorem contains_eq_getLsbD (keys : HeldKeys) (action : GameAction) :
    keys.contains action = keys.bits.toBitVec.getLsbD action.code.toNat := by
  have bit : action.bit.toBitVec = BitVec.twoPow 32 action.code.toNat := by
    cases action <;> rfl
  have alone : (keys.bits &&& action.bit != 0) =
      (keys.bits.toBitVec &&& BitVec.twoPow 32 action.code.toNat != 0) := by
    rw [← bit, ← UInt32.toBitVec_and, Bool.eq_iff_iff, bne_iff_ne, bne_iff_ne, ne_eq, ne_eq,
      ← UInt32.toBitVec_inj]
    rfl
  rw [contains, alone, BitVec.and_twoPow]
  cases set : keys.bits.toBitVec.getLsbD action.code.toNat with
  | true => cases action <;> rfl
  | false => simp

/-- A key has its own bit and no other. -/
theorem contains_ofKey (code : Int) (action : GameAction) :
    (ofKey code).contains action = KeyStroke.sharing action code := by
  unfold ofKey KeyStroke.sharing
  cases GameAction.ofKey? code with
  | none => cases action <;> rfl
  | some own => cases own <;> cases action <;> rfl

theorem contains_union (keys more : HeldKeys) (action : GameAction) :
    (keys.union more).contains action = (keys.contains action || more.contains action) := by
  simp only [contains_eq_getLsbD, union, UInt32.toBitVec_or, BitVec.getLsbD_or]

theorem contains_diff (keys less : HeldKeys) (action : GameAction) :
    (keys.diff less).contains action = (keys.contains action && !less.contains action) := by
  have inside : action.code.toNat < 32 := by cases action <;> decide
  simp only [contains_eq_getLsbD, diff, UInt32.toBitVec_and, UInt32.toBitVec_not,
    BitVec.getLsbD_and, BitVec.getLsbD_not, inside, decide_true, Bool.true_and]

end HeldKeys

namespace Canvas

/-- A stroke sets or clears the bit of its key, and leaves the other bits as they are. -/
theorem contains_recordKey (canvas : Canvas) (stroke : KeyStroke) (action : GameAction) :
    (canvas.recordKey stroke.action stroke.code).held.contains action =
      if KeyStroke.sharing action stroke.code then stroke.action != .released
      else canvas.held.contains action := by
  cases stroke with
  | mk act code =>
    cases act <;>
      simp only [recordKey, HeldKeys.contains_union, HeldKeys.contains_diff,
        HeldKeys.contains_ofKey] <;>
      cases KeyStroke.sharing action code <;> simp

/-- What strokes make of a canvas, one after the other. -/
def recordKeys (canvas : Canvas) (strokes : List KeyStroke) : Canvas :=
  strokes.foldl (fun canvas stroke => canvas.recordKey stroke.action stroke.code) canvas

/-- A bit follows the last stroke on any of its keys. -/
theorem contains_recordKeys (canvas : Canvas) (strokes : List KeyStroke) (action : GameAction) :
    (canvas.recordKeys strokes).held.contains action =
      match KeyStroke.last? (KeyStroke.sharing action) strokes with
      | some stroke => stroke.action != .released
      | none => canvas.held.contains action := by
  -- From the last stroke backwards: the first found that has the bit decides.
  induction strokes using List.reverseRecOn with
  | nil => rfl
  | append_singleton strokes stroke ih =>
    have goesOn : canvas.recordKeys (strokes ++ [stroke]) =
        (canvas.recordKeys strokes).recordKey stroke.action stroke.code := by
      simp [recordKeys]
    rw [goesOn, contains_recordKey, KeyStroke.last?_append]
    cases KeyStroke.sharing action stroke.code with
    | true => rfl
    | false => exact ih

/-- On a canvas on which no key was held before. -/
theorem contains_recordKeys_iff {canvas : Canvas} (fresh : canvas.held = {})
    (strokes : List KeyStroke) (action : GameAction) :
    (canvas.recordKeys strokes).held.contains action = true ↔
      KeyStroke.LeavesDown (KeyStroke.sharing action) strokes := by
  have before : canvas.held.contains action = false := by
    rw [fresh]
    cases action <;> rfl
  rw [contains_recordKeys, before, KeyStroke.LeavesDown]
  cases KeyStroke.last? (KeyStroke.sharing action) strokes with
  | none => simp
  | some stroke => simp

end Canvas

namespace Stage

/-- Posts strokes one after the other. -/
def strike (strokes : List KeyStroke) : Act Unit :=
  strokes.forM fun stroke => postKey stroke.action stroke.code

variable {s : Session Stage}

/-- A stroke counts whether or not it is posted as an event. -/
theorem run_postKey (action : KeyAction) (code : Int) : ∃ queue,
    (postKey action code).run.run s = (.ok (), { s with
      stage := { s.stage with canvas := s.stage.canvas.recordKey action code }
      queue }) := by
  have ran : (postKey action code).run.run s =
      (Act.postAll ((s.stage.canvas.recordKey action code).keyEvents action code)).run.run
        { s with stage := { s.stage with canvas := s.stage.canvas.recordKey action code } } := rfl
  rw [ran]
  unfold Canvas.keyEvents
  split
  · exact ⟨s.queue, rfl⟩
  · exact ⟨_, rfl⟩

theorem run_strike (strokes : List KeyStroke) : ∃ queue,
    (strike strokes).run.run s = (.ok (), { s with
      stage := { s.stage with canvas := s.stage.canvas.recordKeys strokes }
      queue }) := by
  induction strokes generalizing s with
  | nil => exact ⟨s.queue, rfl⟩
  | cons stroke strokes ih =>
    obtain ⟨queue, first⟩ := run_postKey (s := s) stroke.action stroke.code
    obtain ⟨queue', rest⟩ := ih (s := { s with
      stage := { s.stage with canvas := s.stage.canvas.recordKey stroke.action stroke.code }
      queue })
    have goesOn : strike (stroke :: strokes) =
        postKey stroke.action stroke.code >>= fun _ => strike strokes := rfl
    refine ⟨queue', ?_⟩
    rw [goesOn, run_bind, first]
    exact rest

/-- The keys that are said to be held after strokes, whoever asks. -/
def Reports (s : Session Stage) (strokes : List KeyStroke) (held : HeldKeys) : Prop :=
  ∃ s', (strike strokes).run.run s = (.ok (), s') ∧
    ∀ runner, (perform runner .heldKeys).run.run s' = (.ok (.heldKeys held), s')

theorem reports_recordKeys (s : Session Stage) (strokes : List KeyStroke) :
    Reports s strokes (s.stage.canvas.recordKeys strokes).held := by
  obtain ⟨queue, ran⟩ := run_strike (s := s) strokes
  exact ⟨_, ran, fun runner => rfl⟩

theorem Reports.eq_recordKeys {strokes : List KeyStroke} {held : HeldKeys}
    (reports : Reports s strokes held) : held = (s.stage.canvas.recordKeys strokes).held := by
  obtain ⟨s', ran, told⟩ := reports
  obtain ⟨queue, ran'⟩ := run_strike (s := s) strokes
  obtain rfl := congrArg Prod.snd (ran.symm.trans ran')
  have answer := congrArg Prod.fst (told ⟨Host.stage.step 0, fun _ => return⟩)
  injection answer with answer
  injection answer with answer
  exact answer.symm

/-- The keys that a canvas says are held, whatever its keyboard layout is and whether or not game
keys are posted. An action is said to be held exactly if the last stroke on any of its keys was no
release, and then one of its keys is held. That is said of exactly the actions that have a key that
is held, but for those where the last stroke was a release of another key. -/
theorem held_exact_iff (fresh : s.stage.canvas.held = {}) (strokes : List KeyStroke) :
    ∃ held, Reports s strokes held ∧ ∀ action : GameAction,
      (held.contains action = true ↔ KeyStroke.LeavesDown (KeyStroke.sharing action) strokes) ∧
      (held.contains action = true → KeyStroke.SomeDown strokes action) ∧
      ((held.contains action = true ↔ KeyStroke.SomeDown strokes action) ↔
        ¬ (KeyStroke.LeavesUp (KeyStroke.sharing action) strokes ∧
          KeyStroke.SomeDown strokes action)) := by
  refine ⟨_, reports_recordKeys s strokes, fun action => ?_⟩
  have follows := Canvas.contains_recordKeys_iff fresh strokes action
  refine ⟨follows, fun held => KeyStroke.someDown_of_leavesDown (follows.mp held), ?_⟩
  rw [follows]
  constructor
  · rintro right ⟨up, down⟩
    exact KeyStroke.not_leavesUp (right.mpr down) up
  · intro kept
    refine ⟨KeyStroke.someDown_of_leavesDown, fun down => ?_⟩
    exact (KeyStroke.leavesDown_or_leavesUp down).resolve_right fun up => kept ⟨up, down⟩

/-- A session of one pixel. -/
def pixelSession : Session Stage where
  stage := { canvas := pixelCanvas, app := .scripted, backBuffer := .blank 1 1 }

/-- The arrow is let go before the digit is pressed. -/
theorem held_exact_iff_arrowThenDigit :
    let strokes : List KeyStroke :=
      [⟨.pressed, Key.left⟩, ⟨.released, Key.left⟩, ⟨.pressed, Key.num4⟩]
    pixelSession.stage.canvas.held = {} ∧ ∃ held, Reports pixelSession strokes held ∧
      held.contains .left = true ∧ KeyStroke.SomeDown strokes .left := by
  intro strokes
  obtain ⟨held, reports, exact⟩ := held_exact_iff (s := pixelSession) rfl strokes
  have down : held.contains .left = true := (exact .left).1.mpr ⟨_, rfl, nofun⟩
  exact ⟨rfl, held, reports, down, (exact .left).2.1 down⟩

/-- A digit that is let go takes the arrow with it, which is held still. -/
theorem held_lost :
    ¬ ∀ (s : Session Stage) (strokes : List KeyStroke), s.stage.canvas.held = {} →
      ∃ held, Reports s strokes held ∧ ∀ action : GameAction,
        held.contains action = true ↔ KeyStroke.SomeDown strokes action := by
  intro right
  let strokes : List KeyStroke :=
    [⟨.pressed, Key.left⟩, ⟨.pressed, Key.num4⟩, ⟨.released, Key.num4⟩]
  obtain ⟨held, reports, exact⟩ := right pixelSession strokes rfl
  have arrow : KeyStroke.SomeDown strokes .left := ⟨Key.left, rfl, _, rfl, nofun⟩
  have gone : held.contains .left = false := by
    rw [reports.eq_recordKeys, Canvas.contains_recordKeys]
    rfl
  rw [(exact .left).mpr arrow] at gone
  cases gone

end Stage

end Handset
