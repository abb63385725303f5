/-! A limit on the rate of frames. Instants are milliseconds. A caller reserves the next free slot
and waits for it, so that callers who come together are spaced out; an interrupt ends a wait. -/

namespace Handset

/-- `lastFrame` is the slot given away last, which may lie ahead. `interrupts` counts the
interrupts, so that a waiter can tell that one came. -/
structure Limiter where
  fpsLimit : Nat
  lastFrame : Option Nat := none
  interrupts : Nat := 0
  deriving DecidableEq, Repr

/-- What a caller is told: to go on, or to wait until `deadline` unless an interrupt past the number
`seen` comes. -/
inductive Admission
  | go
  | wait (deadline seen : Nat)
  deriving DecidableEq, Repr

namespace Limiter

/-- The time of one frame; a limit of zero is no limit. -/
def budget? (limiter : Limiter) : Option Nat :=
  if limiter.fpsLimit = 0 then none else some (1000 / limiter.fpsLimit)

/-- Takes the next free slot. -/
def reserve (limiter : Limiter) (now : Nat) : Admission × Limiter :=
  match limiter.budget? with
  | none => (.go, limiter)
  | some budget =>
    match limiter.lastFrame with
    | none => (.go, { limiter with lastFrame := some now })
    | some last =>
      if now < last + budget then
        (.wait (last + budget) limiter.interrupts, { limiter with lastFrame := some (last + budget) })
      else (.go, { limiter with lastFrame := some now })

/-- Ends every wait in progress. -/
def interrupt (limiter : Limiter) : Limiter :=
  { limiter with interrupts := limiter.interrupts + 1 }

/-- A waiter that was interrupted is admitted at once. -/
def wakeInterrupted (limiter : Limiter) (now : Nat) : Limiter :=
  { limiter with lastFrame := some now }

/-- The instant at which a caller is admitted who waits as long as told. -/
def throttle (limiter : Limiter) (now : Nat) : Nat × Limiter :=
  match limiter.reserve now with
  | (.go, limiter) => (now, limiter)
  | (.wait deadline _, limiter) => (deadline, limiter)

/-- The same for a caller whose wait is interrupted as soon as it begins. -/
def throttleInterrupted (limiter : Limiter) (now : Nat) : Nat × Limiter :=
  match limiter.reserve now with
  | (.go, limiter) => (now, limiter)
  | (.wait .., limiter) => (now, limiter.interrupt.wakeInterrupted now)

/-- Several callers, each after the last was admitted. -/
def throttleTimes (limiter : Limiter) (now : Nat) : Nat → Nat × Limiter
  | 0 => (now, limiter)
  | times + 1 =>
    let (now, limiter) := limiter.throttle now
    limiter.throttleTimes now times

def throttleInterruptedTimes (limiter : Limiter) (now : Nat) : Nat → Nat × Limiter
  | 0 => (now, limiter)
  | times + 1 =>
    let (now, limiter) := limiter.throttleInterrupted now
    limiter.throttleInterruptedTimes now times

@[simp] theorem reserve_unlimited (limiter : Limiter) (now : Nat) (h : limiter.fpsLimit = 0) :
    limiter.reserve now = (.go, limiter) := by
  simp [reserve, budget?, h]

end Limiter

/-- Counts frames and gives their rate over the last full second. -/
structure FpsCounter where
  frames : Nat := 0
  windowStart : Nat
  rate : Nat := 0
  deriving DecidableEq, Repr

def FpsCounter.increment (counter : FpsCounter) (now : Nat) : FpsCounter :=
  let frames := counter.frames + 1
  let elapsed := now - counter.windowStart
  if 1000 ≤ elapsed then { frames := 0, windowStart := now, rate := frames * 1000 / elapsed }
  else { counter with frames }

end Handset
