import Handset.Proofs.PaintCycle
import Mathlib.Logic.Function.Basic

/-! The locks of painting and flushing, among threads. A paint holds the images while the
application draws, and may then wait for the copy that a game canvas hands over; a thread that flushes
the game canvas holds that copy, and waits for the images. All other waiting comes to an end. -/

namespace Handset

open Relation (TransGen ReflTransGen)

/-- The locks of the images, of the copy that a game canvas hands over, of its back buffer, and of the
queue. -/
inductive Lock
  | frame
  | staging
  | buffer
  | queue
  deriving DecidableEq, Repr

/-- What a thread does at one time: it takes a lock, lets go of one, or does something, `inside` the
application's paint or outside. -/
inductive Chore
  | take (lock : Lock)
  | free (lock : Lock)
  | act (inside : Bool) (deed : Stage.Act Unit)

namespace Chore

/-- What is done, with the locks left out. -/
def performAll : List Chore → Stage.Act Unit
  | [] => return
  | .act _ deed :: rest => do
    deed
    performAll rest
  | _ :: rest => performAll rest

def leave (locks : List Lock) : List Chore :=
  locks.map .free

@[simp] theorem performAll_leave (locks : List Lock) : performAll (leave locks) = pure () := by
  induction locks with
  | nil => rfl
  | cons lock locks ih => exact ih

end Chore

namespace Stage

def unanswered {α : Type} (act : Act α) : Act Unit := do
  let _ ← act

/-- Copies the back buffer. -/
def stageBuffer : Act Unit := do
  let stage := (← get).stage
  match stage.staging with
  | none => return
  | some staging =>
    let buffer := stage.backBuffer
    let staging := if Frame.fits staging buffer.width buffer.height then buffer.copyTo staging
      else buffer
    modify fun s => { s with stage := { s.stage with staging := some staging } }

def submit (image : Image) : Act Unit := do
  modifyCanvas fun canvas => { canvas with frame := canvas.frame.submit image }
  composeUnlessParallel

/-- Submits the copy of the back buffer. -/
def submitStaged : Act Unit := do
  match (← get).stage.staging with
  | none => return
  | some staging => submit staging

/-- What is handed over is what a session flushes. -/
theorem run_stageBuffer {s : Session Stage} {staging : Image}
    (game : s.stage.staging = some staging) :
    ∃ image s', stageBuffer.run.run s = (.ok (), s') ∧ s'.painting = s.painting ∧
      s'.stage.staging = some image ∧
      flushGame.run.run s = (flushBuffer image).run.run s' := by
  simp only [stageBuffer, flushGame, run_bind, run_get, game]
  exact ⟨_, _, rfl, rfl, rfl, rfl⟩

end Stage

open Stage (unanswered)

/-- What a thread may be asked to do, inside a paint or outside. -/
inductive Errand
  | flushGraphics
  | paintBackBuffer (image : Image) (drawings : List Drawing)
  | withGraphics (drawings : List Drawing)
  | compose
  | flushBuffer (image : Image)
  | repaint

namespace Errand

/-- What the session does for it. -/
def action : Errand → Stage.Act Unit
  | .flushGraphics => Stage.flushGame
  | .paintBackBuffer image drawings => unanswered (Stage.paintGame image drawings)
  | .withGraphics drawings => unanswered (Stage.drawGame drawings)
  | .compose => Stage.compose
  | .flushBuffer image => Stage.flushBuffer image
  | .repaint => Stage.repaint

/-- An image is shown under the lock of the images, and not from inside a paint. -/
def showing (inside : Bool) (submit : Stage.Act Unit) : List Chore :=
  if inside then [.act true (Act.log .flushIgnored)]
  else [.act false Stage.throttle, .take .frame, .act false submit, .free .frame]

/-- One thing under one lock. -/
def under (lock : Lock) (inside : Bool) (deed : Stage.Act Unit) : List Chore :=
  [.take lock, .act inside deed, .free lock]

/-- What it takes, one after the other. The copy of the back buffer is kept until it was shown. -/
def chores (inside : Bool) : Errand → List Chore
  | .flushGraphics =>
    .take .staging :: under .buffer inside Stage.stageBuffer ++
      (showing inside Stage.submitStaged ++ [.free .staging])
  | .paintBackBuffer image drawings =>
    under .buffer inside (unanswered (Stage.paintGame image drawings))
  | .withGraphics drawings => under .buffer inside (unanswered (Stage.drawGame drawings))
  | .compose => if inside then [] else under .frame false Stage.composeFrame
  | .flushBuffer image => showing inside (Stage.submit image)
  | .repaint => .act inside Stage.throttle :: under .queue inside (unanswered (Act.post .paint))

theorem performAll_under (lock : Lock) (inside : Bool) (deed : Stage.Act Unit) :
    Chore.performAll (under lock inside deed) = deed :=
  bind_pure_unit

/-- Whatever is submitted, as long as it is the image. -/
theorem run_showing (image : Image) {inside : Bool} {deed : Stage.Act Unit} {s : Session Stage}
    (outside : s.painting = inside)
    (submits : ∀ s' : Session Stage, s'.stage.staging = s.stage.staging →
      deed.run.run s' = (Stage.submit image).run.run s') (locks : List Lock) :
    (Chore.performAll (showing inside deed ++ Chore.leave locks)).run.run s =
      (Stage.flushBuffer image).run.run s := by
  have ignored : (Stage.flushBuffer image).run.run s =
      (if inside then Act.log .flushIgnored
        else do Stage.throttle; Stage.submit image).run.run s := by
    subst outside
    rfl
  rw [ignored]
  cases inside with
  | true =>
    have logs : Chore.performAll (showing true deed ++ Chore.leave locks) =
        Act.log .flushIgnored >>= fun _ => Chore.performAll (Chore.leave locks) := rfl
    rw [logs, Chore.performAll_leave, bind_pure_unit]
    rfl
  | false =>
    have waits : Chore.performAll (showing false deed ++ Chore.leave locks) =
        Stage.throttle >>= fun _ => deed >>= fun _ => Chore.performAll (Chore.leave locks) := rfl
    obtain ⟨s', throttled, staging⟩ : ∃ s', Stage.throttle.run.run s = (.ok (), s') ∧
        s'.stage.staging = s.stage.staging := ⟨_, rfl, rfl⟩
    rw [waits, Chore.performAll_leave, bind_pure_unit]
    simp only [Bool.false_eq_true, if_false, run_bind, throttled, submits s' staging]

/-- A thread that has a session to itself does what the session does. -/
theorem run_chores (errand : Errand) (inside : Bool) {s : Session Stage} {staging : Image}
    (outside : s.painting = inside) (game : s.stage.staging = some staging) :
    (Chore.performAll (errand.chores inside)).run.run s = errand.action.run.run s := by
  cases errand with
  | paintBackBuffer | withGraphics => rw [chores, performAll_under, action]
  | repaint =>
    have waits : Chore.performAll (Errand.repaint.chores inside) = Stage.throttle >>= fun _ =>
        Chore.performAll (under .queue inside (unanswered (Act.post .paint))) := rfl
    rw [waits, performAll_under]
    rfl
  | compose =>
    simp only [action, Stage.compose, run_bind, run_get, outside]
    cases inside with
    | true => rfl
    | false =>
      rw [chores, if_neg Bool.false_ne_true, performAll_under]
      rfl
  | flushBuffer image =>
    have shows := run_showing image outside (fun s' _ => rfl) []
    rwa [Chore.leave, List.map_nil, List.append_nil] at shows
  | flushGraphics =>
    obtain ⟨image, s', staged, painting, staging', flushes⟩ := Stage.run_stageBuffer game
    have submits : ∀ s'' : Session Stage, s''.stage.staging = s'.stage.staging →
        Stage.submitStaged.run.run s'' = (Stage.submit image).run.run s'' := by
      intro s'' same
      simp only [Stage.submitStaged, run_bind, run_get, same, staging']
    have shows := run_showing image (painting.trans outside) submits [.staging]
    have goesOn : Chore.performAll (Errand.flushGraphics.chores inside) =
        Stage.stageBuffer >>= fun _ =>
          Chore.performAll (showing inside Stage.submitStaged ++ Chore.leave [.staging]) := rfl
    rw [goesOn, run_bind, staged]
    exact shows.trans flushes.symm

end Errand

/-- What the application does in its paint. -/
inductive Brushwork
  | draw (pen : Pen) (drawing : Drawing)
  | backBuffer (pen : Pen)
  | errand (call : Errand)

def Brushwork.chores : Brushwork → List Chore
  | .draw pen drawing => [.act true (unanswered (Stage.draw pen drawing))]
  | .backBuffer pen => Errand.under .buffer true (unanswered (Stage.drawBackBuffer pen))
  | .errand call => call.chores true

/-- A call that a thread makes: an errand, or a paint cycle whose paint comes to an end as given. -/
inductive Visit
  | errand (call : Errand)
  | paint (work : List Brushwork) (failure : Option Failure)

namespace Visit

/-- A paint is over, and the images are let go of. -/
def closing (result : Except Fault (Option Failure)) : List Chore :=
  [.act false (Stage.endPaint result), .free .frame]

theorem performAll_closing (result : Except Fault (Option Failure)) :
    Chore.performAll (closing result) = Stage.endPaint result :=
  bind_pure_unit

def chores (shown : Bool) : Visit → List Chore
  | .errand call => call.chores false
  | .paint work failure =>
    if shown then .take .frame :: (work.flatMap Brushwork.chores ++ closing (.ok failure)) else []

/-- A fault lets go of the locks that were taken for it. The images are kept until the end of the
paint that the fault was in. -/
def unwinding (held : List Lock) (inside : Bool) (fault : Fault) : List Chore :=
  if inside then Chore.leave held.dropLast ++ closing (.error fault) else Chore.leave held

/-- A game canvas is flushed, inside a paint or outside. -/
def Flushes (inside : Bool) : Visit → Prop
  | .errand call => inside = false ∧ call = .flushGraphics
  | .paint work _ => inside = true ∧ .errand .flushGraphics ∈ work

end Visit

/-- The locks that a thread holds, the newest first, and what it is still to do. -/
structure Thread where
  held : List Lock := []
  rest : List Chore := []

/-- Threads, any number of them, and the session that they share. -/
structure Crew where
  session : Session Stage
  thread : Nat → Thread := fun _ => {}

namespace Crew

def set (crew : Crew) (t : Nat) (thread : Thread) : Crew :=
  { crew with thread := Function.update crew.thread t thread }

@[simp] theorem thread_set_self (crew : Crew) (t : Nat) (thread : Thread) :
    (crew.set t thread).thread t = thread :=
  Function.update_self ..

theorem thread_set_of_ne {crew : Crew} {t u : Nat} {thread : Thread} (other : u ≠ t) :
    (crew.set t thread).thread u = crew.thread u :=
  Function.update_of_ne other ..

/-- What the thread `t` does at one time. -/
inductive Step (visits : Visit → Prop) (t : Nat) : Crew → Crew → Prop
  | visit {crew : Crew} {visit : Visit} (may : visits visit) (idle : (crew.thread t).rest = []) :
      Step visits t crew
        (crew.set t ⟨(crew.thread t).held, visit.chores crew.session.stage.canvas.shown⟩)
  | take {crew : Crew} {lock : Lock} {rest : List Chore}
      (next : (crew.thread t).rest = .take lock :: rest)
      (free : ∀ u, lock ∉ (crew.thread u).held) :
      Step visits t crew (crew.set t ⟨lock :: (crew.thread t).held, rest⟩)
  | free {crew : Crew} {lock : Lock} {rest : List Chore}
      (next : (crew.thread t).rest = .free lock :: rest) :
      Step visits t crew (crew.set t ⟨(crew.thread t).held.erase lock, rest⟩)
  | act {crew : Crew} {inside : Bool} {deed : Stage.Act Unit} {rest : List Chore}
      {session : Session Stage} (next : (crew.thread t).rest = .act inside deed :: rest)
      (ran : deed.run.run { crew.session with painting := inside, thread := t } =
        (.ok (), session)) :
      Step visits t crew { crew.set t ⟨(crew.thread t).held, rest⟩ with session }
  | fault {crew : Crew} {inside : Bool} {deed : Stage.Act Unit} {rest : List Chore} {fault : Fault}
      {session : Session Stage} (next : (crew.thread t).rest = .act inside deed :: rest)
      (ran : deed.run.run { crew.session with painting := inside, thread := t } =
        (.error fault, session)) :
      Step visits t crew { crew.set t ⟨(crew.thread t).held,
        Visit.unwinding (crew.thread t).held inside fault⟩ with session }

/-- What threads make of a session, each of them doing nothing at first. -/
inductive Reaches (visits : Visit → Prop) (s : Session Stage) : Crew → Prop
  | start : Reaches visits s { session := s }
  | step {crew crew' : Crew} {t : Nat} :
      Reaches visits s crew → Step visits t crew crew' → Reaches visits s crew'

variable (crew : Crew)

def Wants (t : Nat) (lock : Lock) : Prop :=
  ∃ rest, (crew.thread t).rest = .take lock :: rest

/-- The thread `t` is to take a lock that `u` holds. -/
def Waits (t u : Nat) : Prop :=
  ∃ lock, crew.Wants t lock ∧ lock ∈ (crew.thread u).held

/-- The painter flushes a game canvas from inside its paint, and waits for the copy of a thread that
flushes it from outside; and that one waits for the paint. -/
structure Crossed (painter flusher : Nat) : Prop where
  painter_held : (crew.thread painter).held = [.frame]
  painter_wants : crew.Wants painter .staging
  flusher_held : (crew.thread flusher).held = [.staging]
  flusher_wants : crew.Wants flusher .frame

end Crew

/-- The back buffer and the queue are the last locks that a thread takes. -/
def Lock.Inner (lock : Lock) : Prop :=
  lock = .buffer ∨ lock = .queue

/-- The locks that may be taken while others are held, where a game canvas may be flushed inside a
paint, or outside. -/
inductive Nests (flushes : Bool → Prop) : List Lock → Lock → Prop
  | alone {lock : Lock} : Nests flushes [] lock
  | staged : Nests flushes [.staging] .buffer
  | flushed (outside : flushes false) : Nests flushes [.staging] .frame
  | painted {lock : Lock} (inner : lock.Inner) : Nests flushes [.frame] lock
  | crossed (inside : flushes true) : Nests flushes [.frame] .staging
  | copied (inside : flushes true) : Nests flushes [.staging, .frame] .buffer

namespace Nests

variable {flushes : Bool → Prop} {held : List Lock} {lock : Lock}

theorem not_mem (nests : Nests flushes held lock) {inner : Lock} (last : inner.Inner) :
    inner ∉ held := by
  obtain rfl | rfl := last <;> cases nests <;> simp

/-- With a lock in hand, a thread takes the images after the copy of the back buffer, or that copy
after the images, and no other outer lock. -/
theorem outer (nests : Nests flushes held lock) (holds : held ≠ []) (outer : ¬ lock.Inner) :
    held = [.staging] ∧ lock = .frame ∧ flushes false ∨
      held = [.frame] ∧ lock = .staging ∧ flushes true := by
  cases nests with
  | alone => exact absurd rfl holds
  | staged => exact absurd (.inl rfl) outer
  | flushed outside => exact .inl ⟨rfl, rfl, outside⟩
  | painted inner => exact absurd inner outer
  | crossed inside => exact .inr ⟨rfl, rfl, inside⟩
  | copied inside => exact absurd (.inl rfl) outer

end Nests

/-- A thread takes its locks as they nest, and lets go of the newest first. Inside a paint the
images are its oldest lock. -/
inductive Orderly (flushes : Bool → Prop) : List Lock → List Chore → Prop
  | idle : Orderly flushes [] []
  | take {held : List Lock} {lock : Lock} {rest : List Chore} (nests : Nests flushes held lock)
      (orderly : Orderly flushes (lock :: held) rest) : Orderly flushes held (.take lock :: rest)
  | free {held : List Lock} {lock : Lock} {rest : List Chore}
      (orderly : Orderly flushes held rest) : Orderly flushes (lock :: held) (.free lock :: rest)
  | act {held : List Lock} {inside : Bool} {deed : Stage.Act Unit} {rest : List Chore}
      (painting : inside = true → held.getLast? = some .frame)
      (orderly : Orderly flushes held rest) : Orderly flushes held (.act inside deed :: rest)

namespace Orderly

variable {flushes : Bool → Prop} {held outer : List Lock} {rest : List Chore}

theorem of_idle (orderly : Orderly flushes held []) : held = [] := by
  cases orderly
  rfl

theorem of_take {lock : Lock} (orderly : Orderly flushes held (.take lock :: rest)) :
    Nests flushes held lock ∧ Orderly flushes (lock :: held) rest := by
  cases orderly with
  | take nests orderly => exact ⟨nests, orderly⟩

theorem of_free {lock : Lock} (orderly : Orderly flushes held (.free lock :: rest)) :
    ∃ outer, held = lock :: outer ∧ Orderly flushes outer rest := by
  cases orderly with
  | free orderly => exact ⟨_, rfl, orderly⟩

theorem of_act {inside : Bool} {deed : Stage.Act Unit}
    (orderly : Orderly flushes held (.act inside deed :: rest)) :
    (inside = true → held.getLast? = some .frame) ∧ Orderly flushes held rest := by
  cases orderly with
  | act painting orderly => exact ⟨painting, orderly⟩

theorem leave (orderly : Orderly flushes outer rest) (inner : List Lock) :
    Orderly flushes (inner ++ outer) (Chore.leave inner ++ rest) := by
  induction inner with
  | nil => exact orderly
  | cons lock inner ih => exact .free ih

theorem closing (result : Except Fault (Option Failure)) :
    Orderly flushes [.frame] (Visit.closing result) :=
  .act nofun (.free .idle)

theorem under (lock : Lock) {inside : Bool} (deed : Stage.Act Unit)
    (nests : Nests flushes held lock) (painting : inside = true → held.getLast? = some .frame)
    (orderly : Orderly flushes held rest) :
    Orderly flushes held (Errand.under lock inside deed ++ rest) := by
  refine .take nests (.act (fun is => ?_) (.free orderly))
  rw [List.getLast?_cons, painting is]
  rfl

/-- Inside a paint nothing is taken, and outside it the images are. -/
theorem showing (inside : Bool) (deed : Stage.Act Unit)
    (painting : inside = true → held.getLast? = some .frame)
    (nests : inside = false → Nests flushes held .frame) (orderly : Orderly flushes held rest) :
    Orderly flushes held (Errand.showing inside deed ++ rest) := by
  cases inside with
  | true => exact .act painting orderly
  | false => exact .act nofun (.take (nests rfl) (.act nofun (.free orderly)))

/-- An errand is run by a thread that holds nothing, or inside of its paint. -/
theorem errand (call : Errand) (inside : Bool) (flushing : call = .flushGraphics → flushes inside)
    (orderly : Orderly flushes (if inside then [.frame] else []) rest) :
    Orderly flushes (if inside then [.frame] else []) (call.chores inside ++ rest) := by
  cases inside with
  | false =>
    cases call with
    | flushGraphics =>
      have outside := flushing rfl
      exact .take .alone (under .buffer _ .staged nofun
        (showing false _ nofun (fun _ => .flushed outside) (.free orderly)))
    | paintBackBuffer | withGraphics => exact under .buffer _ .alone nofun orderly
    | compose => exact under .frame _ .alone nofun orderly
    | flushBuffer image => exact showing false _ nofun (fun _ => .alone) orderly
    | repaint => exact .act nofun (under .queue _ .alone nofun orderly)
  | true =>
    have painting : true = true → [Lock.frame].getLast? = some .frame := fun _ => rfl
    cases call with
    | flushGraphics =>
      have inside := flushing rfl
      exact .take (.crossed inside) (under .buffer _ (.copied inside) painting
        (showing true Stage.submitStaged painting nofun (.free orderly)))
    | paintBackBuffer | withGraphics => exact under .buffer _ (.painted (.inl rfl)) painting orderly
    | compose => exact orderly
    | flushBuffer image => exact showing true (Stage.submit image) painting nofun orderly
    | repaint => exact .act painting (under .queue _ (.painted (.inr rfl)) painting orderly)

theorem work (work : List Brushwork) (flushing : .errand .flushGraphics ∈ work → flushes true)
    (orderly : Orderly flushes [.frame] rest) :
    Orderly flushes [.frame] (work.flatMap Brushwork.chores ++ rest) := by
  -- Between two calls of a paint the images are the only lock.
  induction work with
  | nil => exact orderly
  | cons brushwork work ih =>
    have later := ih fun mem => flushing (.tail _ mem)
    rw [List.flatMap_cons, List.append_assoc]
    cases brushwork with
    | draw pen drawing => exact .act (fun _ => rfl) later
    | backBuffer pen => exact under .buffer _ (.painted (.inl rfl)) (fun _ => rfl) later
    | errand call =>
      refine errand call true (fun flushed => flushing ?_) later
      rw [flushed]
      exact .head _

theorem visit (visit : Visit) (shown : Bool)
    (flushing : ∀ inside, visit.Flushes inside → flushes inside) :
    Orderly flushes [] (visit.chores shown) := by
  cases visit with
  | errand call =>
    have orderly := errand call false (fun flushed => flushing false ⟨rfl, flushed⟩) .idle
    rwa [List.append_nil] at orderly
  | paint brushworks failure =>
    cases shown with
    | false => exact .idle
    | true => exact .take .alone (work brushworks (fun mem => flushing true ⟨rfl, mem⟩) (closing _))

theorem unwinding {inside : Bool} (painting : inside = true → held.getLast? = some .frame)
    (fault : Fault) : Orderly flushes held (Visit.unwinding held inside fault) := by
  cases inside with
  | false =>
    have orderly : Orderly flushes _ _ := leave .idle held
    rwa [List.append_nil, List.append_nil] at orderly
  | true =>
    -- The images are the last in the list, and `leave` lets go of all before them.
    obtain ⟨inner, rfl⟩ := List.getLast?_eq_some_iff.mp (painting rfl)
    rw [Visit.unwinding, List.dropLast_concat]
    exact leave (closing _) inner

end Orderly

namespace Crew

variable {flushes : Bool → Prop} {visits : Visit → Prop} {s : Session Stage} {crew crew' : Crew}
  {t u v : Nat} {lock : Lock}

/-- No lock is held by two threads, and each takes its own as they nest. -/
structure Sound (flushes : Bool → Prop) (crew : Crew) : Prop where
  orderly : ∀ t, Orderly flushes (crew.thread t).held (crew.thread t).rest
  own : ∀ t u lock, lock ∈ (crew.thread t).held → lock ∈ (crew.thread u).held → t = u

/-- A thread goes on, with no lock that another holds. -/
theorem Sound.set (sound : crew.Sound flushes) {thread : Thread} (session : Session Stage)
    (orderly : Orderly flushes thread.held thread.rest)
    (own : ∀ lock ∈ thread.held, lock ∈ (crew.thread t).held ∨ ∀ u, lock ∉ (crew.thread u).held) :
    Sound flushes { crew.set t thread with session } where
  orderly u := by
    change Orderly flushes ((crew.set t thread).thread u).held ((crew.set t thread).thread u).rest
    by_cases same : u = t
    · rwa [same, thread_set_self]
    · rw [thread_set_of_ne same]
      exact sound.orderly u
  own u v lock := by
    change lock ∈ ((crew.set t thread).thread u).held →
      lock ∈ ((crew.set t thread).thread v).held → u = v
    have alone {w : Nat} (other : w ≠ t) (mem : lock ∈ thread.held) :
        lock ∉ (crew.thread w).held := by
      intro held
      obtain before | free := own lock mem
      · exact other (sound.own w t lock held before)
      · exact free w held
    by_cases first : u = t <;> by_cases second : v = t
    · exact fun _ _ => first.trans second.symm
    · rw [first, thread_set_self, thread_set_of_ne second]
      exact fun mem held => absurd held (alone second mem)
    · rw [second, thread_set_self, thread_set_of_ne first]
      exact fun held mem => absurd held (alone first mem)
    · rw [thread_set_of_ne first, thread_set_of_ne second]
      exact sound.own u v lock

/-- Some visit flushes a game canvas, inside its paint or outside. -/
def Flushed (visits : Visit → Prop) (inside : Bool) : Prop :=
  ∃ visit, visits visit ∧ visit.Flushes inside

theorem Step.sound (step : Step visits t crew crew') (sound : crew.Sound (Flushed visits)) :
    crew'.Sound (Flushed visits) := by
  have orderly := sound.orderly t
  cases step with
  | @visit visit may idle =>
    rw [idle] at orderly
    rw [orderly.of_idle]
    exact sound.set crew.session (.visit visit _ fun inside flushes => ⟨visit, may, flushes⟩) nofun
  | take next free =>
    rw [next] at orderly
    refine sound.set crew.session orderly.of_take.2 fun lock mem => ?_
    obtain rfl | mem := List.mem_cons.mp mem
    · exact .inr free
    · exact .inl mem
  | free next =>
    rw [next] at orderly
    obtain ⟨outer, held, orderly⟩ := orderly.of_free
    rw [held, List.erase_cons_head]
    refine sound.set crew.session orderly fun lock mem => .inl ?_
    rw [held]
    exact .tail _ mem
  | act next ran =>
    rw [next] at orderly
    exact sound.set _ orderly.of_act.2 fun lock mem => .inl mem
  | fault next ran =>
    rw [next] at orderly
    exact sound.set _ (.unwinding orderly.of_act.1 _) fun lock mem => .inl mem

theorem Reaches.sound (reaches : Reaches visits s crew) : crew.Sound (Flushed visits) := by
  induction reaches with
  | start => exact ⟨fun t => .idle, nofun⟩
  | step _ step ih => exact step.sound ih

/-- What a thread waits for, its locks let it wait for. -/
theorem Sound.nests (sound : crew.Sound flushes) (wants : crew.Wants t lock) :
    Nests flushes (crew.thread t).held lock := by
  obtain ⟨rest, next⟩ := wants
  have orderly := sound.orderly t
  rw [next] at orderly
  exact orderly.of_take.1

theorem Sound.not_wants (sound : crew.Sound flushes) {inner : Lock} (last : inner.Inner)
    (holds : inner ∈ (crew.thread t).held) : ¬ crew.Wants t lock :=
  fun wants => (sound.nests wants).not_mem last holds

/-- Where a thread with a lock waits for a second, which waits for a third, which waits too, the
first two cross. -/
theorem Sound.crossed_of_waits (sound : crew.Sound flushes) (holds : (crew.thread t).held ≠ [])
    (tu : crew.Waits t u) (uv : crew.Waits u v) (goesOn : crew.Wants v lock) :
    crew.Crossed t u ∨ crew.Crossed u t := by
  obtain ⟨first, wants, held⟩ := tu
  obtain ⟨second, wants', held'⟩ := uv
  have outer : ¬ first.Inner := fun inner => sound.not_wants inner held wants'
  have outer' : ¬ second.Inner := fun inner => sound.not_wants inner held' goesOn
  have holds' : (crew.thread u).held ≠ [] := List.ne_nil_of_mem held
  obtain ⟨has, rfl, -⟩ | ⟨has, rfl, -⟩ := (sound.nests wants).outer holds outer
  · obtain ⟨has', rfl, -⟩ | ⟨has', rfl, -⟩ := (sound.nests wants').outer holds' outer'
    · rw [has'] at held
      simp at held
    · exact .inr ⟨has', wants', has, wants⟩
  · obtain ⟨has', rfl, -⟩ | ⟨has', rfl, -⟩ := (sound.nests wants').outer holds' outer'
    · exact .inl ⟨has, wants, has', wants'⟩
    · rw [has'] at held
      simp at held

/-- Threads that wait in a circle wait for the next in the circle. -/
theorem exists_waits_of_cycle (cycle : TransGen crew.Waits t t) :
    ∃ u, crew.Waits t u ∧ TransGen crew.Waits u u := by
  obtain ⟨u, waits, back⟩ := TransGen.head'_iff.mp cycle
  exact ⟨u, waits, .tail' back waits⟩

theorem Sound.cycle_iff (sound : crew.Sound flushes) :
    (∃ t, TransGen crew.Waits t t) ↔ ∃ painter flusher, crew.Crossed painter flusher := by
  constructor
  · rintro ⟨t, cycle⟩
    obtain ⟨u, tu, cycle'⟩ := exists_waits_of_cycle cycle
    obtain ⟨v, uv, cycle''⟩ := exists_waits_of_cycle cycle'
    obtain ⟨w, ⟨lock, wants, -⟩, -⟩ := exists_waits_of_cycle cycle''
    -- Who waits for `t` shows that `t` holds a lock, as the others in the circle do.
    obtain ⟨s, -, ⟨lock', -, held⟩⟩ := TransGen.tail'_iff.mp cycle
    obtain crossed | crossed :=
      sound.crossed_of_waits (List.ne_nil_of_mem held) tu uv wants
    · exact ⟨t, u, crossed⟩
    · exact ⟨u, t, crossed⟩
  · rintro ⟨painter, flusher, crossed⟩
    have there : crew.Waits painter flusher :=
      ⟨.staging, crossed.painter_wants, by rw [crossed.flusher_held]; exact .head _⟩
    have back : crew.Waits flusher painter :=
      ⟨.frame, crossed.flusher_wants, by rw [crossed.painter_held]; exact .head _⟩
    exact ⟨painter, .tail (.single there) back⟩

/-- Two threads cross where a game canvas is flushed both inside a paint and outside. -/
theorem Sound.flushes_of_crossed (sound : crew.Sound flushes) {painter flusher : Nat}
    (crossed : crew.Crossed painter flusher) : flushes true ∧ flushes false := by
  constructor
  · have nests := sound.nests crossed.painter_wants
    rw [crossed.painter_held] at nests
    cases nests with
    | painted inner => obtain same | same := inner <;> cases same
    | crossed inside => exact inside
  · have nests := sound.nests crossed.flusher_wants
    rw [crossed.flusher_held] at nests
    cases nests with
    | flushed outside => exact outside

/-- A thread that has something to do does it, unless it is to take a lock that is held. -/
theorem exists_step_or_waits (visits : Visit → Prop) (busy : (crew.thread t).rest ≠ []) :
    (∃ crew', Step visits t crew crew') ∨ ∃ u, crew.Waits t u := by
  cases next : (crew.thread t).rest with
  | nil => exact absurd next busy
  | cons chore rest =>
    cases chore with
    | take lock =>
      by_cases free : ∀ u, lock ∉ (crew.thread u).held
      · exact .inl ⟨_, .take next free⟩
      · obtain ⟨u, held⟩ := not_forall_not.mp free
        exact .inr ⟨u, lock, ⟨rest, next⟩, held⟩
    | free lock => exact .inl ⟨_, .free next⟩
    | act inside deed =>
      cases ran : deed.run.run { crew.session with painting := inside, thread := t } with
      | mk result session =>
        cases result with
        | ok _ => exact .inl ⟨_, .act next ran⟩
        | error fault => exact .inl ⟨_, .fault next ran⟩

/-- Who is waited for is in the middle of something. -/
theorem Sound.goesOn_or_waits (sound : crew.Sound flushes) (visits : Visit → Prop)
    (tu : crew.Waits t u) :
    (∃ crew', Step visits u crew crew') ∨ ∃ v, crew.Waits u v := by
  obtain ⟨lock, -, held⟩ := tu
  refine exists_step_or_waits visits fun idle => ?_
  have orderly := sound.orderly u
  rw [idle] at orderly
  rw [orderly.of_idle] at held
  cases held

/-- Some thread goes on that `t` waits for, or `t` itself. -/
def GoesOn (visits : Visit → Prop) (crew : Crew) (t : Nat) : Prop :=
  ∃ u crew', ReflTransGen crew.Waits t u ∧ Step visits u crew crew'

theorem GoesOn.of_waits (waits : crew.Waits t u) (goesOn : GoesOn visits crew u) :
    GoesOn visits crew t := by
  obtain ⟨v, crew', reaches, step⟩ := goesOn
  exact ⟨v, crew', .head waits reaches, step⟩

theorem GoesOn.here (step : Step visits t crew crew') : GoesOn visits crew t :=
  ⟨t, crew', .refl, step⟩

/-- Where no two threads cross, a thread that waits for a second that waits for a third waits for no
more: the third goes on. -/
theorem Sound.goesOn (sound : crew.Sound flushes)
    (straight : ¬ ∃ painter flusher, crew.Crossed painter flusher)
    (busy : (crew.thread t).rest ≠ []) : GoesOn visits crew t := by
  obtain ⟨crew', step⟩ | ⟨u, tu⟩ := exists_step_or_waits visits busy
  · exact .here step
  refine .of_waits tu ?_
  obtain ⟨crew', step⟩ | ⟨v, uv⟩ := sound.goesOn_or_waits visits tu
  · exact .here step
  refine .of_waits uv ?_
  obtain ⟨crew', step⟩ | ⟨w, vw⟩ := sound.goesOn_or_waits visits uv
  · exact .here step
  refine .of_waits vw ?_
  obtain ⟨crew', step⟩ | ⟨x, lock, wants, -⟩ := sound.goesOn_or_waits visits vw
  · exact .here step
  -- `t` need not hold a lock, but `u` does: the crossing is further on.
  obtain ⟨first, -, held⟩ := tu
  obtain crossed | crossed := sound.crossed_of_waits (List.ne_nil_of_mem held) uv vw wants
  · exact absurd ⟨u, v, crossed⟩ straight
  · exact absurd ⟨v, u, crossed⟩ straight

/-- Threads wait for each other in a circle exactly when two of them cross: one flushes a game
canvas from inside its paint, and the other from outside. There are visits of both kinds then. Where
no two threads cross, whoever has something to do goes on, or waits in the end for a thread that does.
A thread by itself does what the session does, in an errand and at the end of a paint. -/
theorem cycle_iff_crossed (reaches : Reaches visits s crew) :
    ((∃ t, TransGen crew.Waits t t) ↔ ∃ painter flusher, crew.Crossed painter flusher) ∧
    (∀ painter flusher, crew.Crossed painter flusher →
      Flushed visits true ∧ Flushed visits false) ∧
    ((¬ ∃ painter flusher, crew.Crossed painter flusher) →
      ∀ t, (crew.thread t).rest ≠ [] → GoesOn visits crew t) ∧
    (∀ (errand : Errand) (s : Session Stage) (staging : Image), s.stage.staging = some staging →
      (Chore.performAll (errand.chores s.painting)).run.run s = errand.action.run.run s) ∧
    ∀ (runner : Runner Stage) (s drawn : Session Stage) (result : Except Fault (Option Failure)),
      s.stage.canvas.shown = true → s.painting = false →
      (Stage.paintApp runner).run.run { s with painting := true } = (result, drawn) →
      (Stage.paintCycle runner).run.run s =
        (Chore.performAll (Visit.closing result)).run.run { drawn with painting := false } := by
  have sound := reaches.sound
  refine ⟨sound.cycle_iff, fun painter flusher crossed => sound.flushes_of_crossed crossed,
    fun straight t busy => sound.goesOn straight busy,
    fun errand s staging game => errand.run_chores s.painting rfl game,
    fun runner s drawn result shown outside paint => ?_⟩
  rw [Stage.run_paintCycle shown outside paint, Visit.performAll_closing]

/-- Two threads, and no other. -/
def pair (session : Session Stage) (first second : Thread) : Crew where
  session := session
  thread
    | 0 => first
    | 1 => second
    | _ => {}

theorem eq_pair (others : ∀ t, crew.thread (t + 2) = {}) :
    crew = pair crew.session (crew.thread 0) (crew.thread 1) := by
  cases crew with
  | mk session thread =>
    simp only [pair, mk.injEq, true_and]
    funext t
    match t with
    | 0 | 1 => rfl
    | t + 2 => exact others t

theorem free_pair {session : Session Stage} {first second : Thread} (free : lock ∉ first.held)
    (free' : lock ∉ second.held) (t : Nat) :
    lock ∉ ((pair session first second).thread t).held := by
  match t with
  | 0 => exact free
  | 1 => exact free'
  | _ + 2 => exact List.not_mem_nil

theorem Reaches.step_pair (reaches : Reaches visits s crew) (step : Step visits t crew crew')
    (others : ∀ u, crew'.thread (u + 2) = {}) :
    Reaches visits s (pair crew'.session (crew'.thread 0) (crew'.thread 1)) := by
  rw [← eq_pair others]
  exact reaches.step step

/-- Where a canvas is shown that has a game canvas, one thread may paint and another flush the game
canvas, so that the two cross when the paint flushes it too. -/
theorem exists_crossed (work : List Brushwork) (failure : Option Failure) {staging : Image}
    (paints : visits (.paint (.errand .flushGraphics :: work) failure))
    (flushes : visits (.errand .flushGraphics)) (shown : s.stage.canvas.shown = true)
    (game : s.stage.staging = some staging) :
    ∃ crew, Reaches visits s crew ∧ crew.Crossed 0 1 := by
  let visit : Visit := .paint (.errand .flushGraphics :: work) failure
  let painter : Thread := ⟨[.frame], (visit.chores true).tail⟩
  let calls : List Chore := Errand.flushGraphics.chores false
  have called : Reaches visits s (pair s ⟨[], visit.chores s.stage.canvas.shown⟩ {}) :=
    Reaches.start.step_pair (.visit (t := 0) paints rfl) fun _ => rfl
  rw [shown] at called
  have painting : Reaches visits s (pair s painter {}) :=
    called.step_pair (.take (t := 0) rfl (free_pair nofun nofun)) fun _ => rfl
  have flushing : Reaches visits s (pair s painter ⟨[], calls⟩) :=
    painting.step_pair (.visit (t := 1) flushes rfl) fun _ => rfl
  have holding : Reaches visits s (pair s painter ⟨[.staging], calls.drop 1⟩) :=
    flushing.step_pair (.take (t := 1) rfl (free_pair (by simp [painter]) nofun)) fun _ => rfl
  have copying : Reaches visits s (pair s painter ⟨[.buffer, .staging], calls.drop 2⟩) :=
    holding.step_pair (.take (t := 1) rfl (free_pair (by simp [painter]) (by simp))) fun _ => rfl
  obtain ⟨image, s', staged, -⟩ :=
    Stage.run_stageBuffer (s := { s with painting := false, thread := 1 }) game
  have copied : Reaches visits s (pair s' painter ⟨[.buffer, .staging], calls.drop 3⟩) :=
    copying.step_pair (.act (t := 1) rfl staged) fun _ => rfl
  have freed : Reaches visits s (pair s' painter ⟨[.staging], calls.drop 4⟩) :=
    copied.step_pair (.free (t := 1) rfl) fun _ => rfl
  have throttled := freed.step_pair (.act (t := 1) rfl rfl) fun _ => rfl
  exact ⟨_, throttled, rfl, ⟨_, rfl⟩, rfl, ⟨_, rfl⟩⟩

/-- A game canvas of one pixel, which is shown. -/
def pixelGame : Session Stage :=
  { Stage.pixelShown [] with stage.staging := some (.blank 1 1) }

theorem exists_crossed_pixelGame :
    ∃ crew, Reaches (fun _ => True) pixelGame crew ∧ crew.Crossed 0 1 :=
  exists_crossed [] none trivial trivial rfl rfl

/-- Both flush the game canvas, and one of them from inside its paint. -/
theorem cycle_iff_crossed_pixelGame :
    ∃ crew, Reaches (fun _ => True) pixelGame crew ∧ (∃ t, TransGen crew.Waits t t) ∧
      Flushed (fun _ => True) true ∧ Flushed (fun _ => True) false := by
  obtain ⟨crew, reaches, crossed⟩ := exists_crossed_pixelGame
  obtain ⟨cycle, flushed, -⟩ := cycle_iff_crossed reaches
  exact ⟨crew, reaches, cycle.mpr ⟨0, 1, crossed⟩, flushed 0 1 crossed⟩

/-- A paint that flushes a game canvas may wait for a thread that waits for that paint. -/
theorem painter_waits_in_circle :
    ¬ ∀ (visits : Visit → Prop) (s : Session Stage) (crew : Crew), Reaches visits s crew →
      ¬ ∃ t, TransGen crew.Waits t t := by
  intro straight
  obtain ⟨crew, reaches, crossed⟩ := exists_crossed_pixelGame
  exact straight _ _ crew reaches (reaches.sound.cycle_iff.mpr ⟨0, 1, crossed⟩)

end Crew

end Handset
