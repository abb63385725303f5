import Mathlib.Data.List.Pairwise
import Mathlib.Logic.Relation
import Handset.Proofs.FrameRate

/-! Callers of a frame limit among threads. A caller reserves a slot and is admitted at once, at its
slot, or when an interrupt ends its wait. One that was interrupted gives away its slot as soon as it
has the lock again; by then, others may have reserved slots behind it. -/

namespace Handset

namespace Limiter

variable {limiter limiter' : Limiter} {budget now : Nat}

theorem reserve_eq_go (limited : limiter.budget? = some budget)
    (reserved : limiter.reserve now = (.go, limiter')) :
    limiter' = limiter.withFrame now ∧ ∀ last, limiter.lastFrame = some last → last + budget ≤ now := by
  unfold reserve at reserved
  rw [limited] at reserved
  cases given : limiter.lastFrame with
  | none =>
    simp only [given] at reserved
    cases reserved
    exact ⟨rfl, nofun⟩
  | some last =>
    simp only [given] at reserved
    split at reserved
    · cases reserved
    · rename_i free
      cases reserved
      refine ⟨rfl, ?_⟩
      rintro _ ⟨⟩
      omega

theorem reserve_eq_wait {deadline seen : Nat} (limited : limiter.budget? = some budget)
    (reserved : limiter.reserve now = (.wait deadline seen, limiter')) :
    limiter' = limiter.withFrame deadline ∧ seen = limiter.interrupts ∧ now < deadline ∧
      ∃ last, limiter.lastFrame = some last ∧ deadline = last + budget := by
  unfold reserve at reserved
  rw [limited] at reserved
  cases given : limiter.lastFrame with
  | none =>
    simp only [given] at reserved
    cases reserved
  | some last =>
    simp only [given] at reserved
    split at reserved
    · rename_i taken
      cases reserved
      exact ⟨rfl, rfl, taken, last, rfl, rfl⟩
    · cases reserved

theorem reserve_taken {last : Nat} (limited : limiter.budget? = some budget)
    (given : limiter.lastFrame = some last) (taken : now < last + budget) :
    limiter.reserve now =
      (.wait (last + budget) limiter.interrupts, limiter.withFrame (last + budget)) := by
  simp [reserve, limited, given, taken, withFrame]

end Limiter

/-- A caller that waits for its slot. `seen` counts the interrupts before. -/
structure Sleeper where
  deadline : Nat
  seen : Nat
  deriving DecidableEq

/-- `admitted` are the frames that nobody interrupted, the last of them first. -/
structure Turnstile where
  limiter : Limiter
  now : Nat := 0
  waiting : List Sleeper := []
  admitted : List Nat := []

namespace Turnstile

/-- Nobody who waits was interrupted. -/
def Calm (t : Turnstile) : Prop :=
  ∀ sleeper ∈ t.waiting, sleeper.seen = t.limiter.interrupts

/-- What one thread does while it has the lock. Where callers are `prompt`, those who were interrupted
have the lock again before a slot is reserved. -/
inductive Step (prompt : Bool) (t : Turnstile) : Turnstile → Prop
  | pass (ticks : Nat) : Step prompt t { t with now := t.now + ticks }
  | go {limiter : Limiter} (quick : prompt = true → t.Calm)
      (reserved : t.limiter.reserve t.now = (.go, limiter)) :
      Step prompt t { t with limiter, admitted := t.now :: t.admitted }
  | wait {limiter : Limiter} {deadline seen : Nat} (quick : prompt = true → t.Calm)
      (reserved : t.limiter.reserve t.now = (.wait deadline seen, limiter)) :
      Step prompt t { t with limiter, waiting := ⟨deadline, seen⟩ :: t.waiting }
  | interrupt : Step prompt t { t with limiter := t.limiter.interrupt }
  | expire {sleeper : Sleeper} (mem : sleeper ∈ t.waiting) (due : sleeper.deadline ≤ t.now)
      (left : sleeper.seen = t.limiter.interrupts) :
      Step prompt t { t with
        waiting := t.waiting.erase sleeper, admitted := sleeper.deadline :: t.admitted }
  | resume {sleeper : Sleeper} (mem : sleeper ∈ t.waiting)
      (told : sleeper.seen ≠ t.limiter.interrupts) :
      Step prompt t { t with
        limiter := t.limiter.wakeInterrupted t.now, waiting := t.waiting.erase sleeper }

abbrev Leads (prompt : Bool) : Turnstile → Turnstile → Prop :=
  Relation.ReflTransGen (Step prompt)

/-- The frames are a budget apart, in whatever order they came. -/
def Apart (budget a b : Nat) : Prop :=
  a + budget ≤ b ∨ b + budget ≤ a

theorem Apart.symm {budget a b : Nat} (apart : Apart budget a b) : Apart budget b a :=
  Or.symm apart

def Spaced (budget : Nat) (t : Turnstile) : Prop :=
  t.admitted.Pairwise (Apart budget)

/-- The slots of those who wait and were not interrupted, and of those who were admitted. -/
def slots (t : Turnstile) : List Nat :=
  (t.waiting.filter (·.seen = t.limiter.interrupts)).map (·.deadline) ++ t.admitted

/-- Whoever was interrupted was so with all who waited. -/
structure Sound (budget : Nat) (t : Turnstile) : Prop where
  limited : t.limiter.budget? = some budget
  apart : t.slots.Pairwise (Apart budget)
  past : ∀ frame ∈ t.admitted, frame ≤ t.now
  ahead : t.Calm → ∀ slot ∈ t.slots, ∃ last, t.limiter.lastFrame = some last ∧ slot ≤ last
  seen : ∀ sleeper ∈ t.waiting, sleeper.seen ≤ t.limiter.interrupts
  alike : t.Calm ∨ ∀ sleeper ∈ t.waiting, sleeper.seen ≠ t.limiter.interrupts

variable {prompt : Bool} {budget : Nat} {t t' : Turnstile}

theorem slots_of_told (told : ∀ sleeper ∈ t.waiting, sleeper.seen ≠ t.limiter.interrupts) :
    t.slots = t.admitted := by
  have none : t.waiting.filter (·.seen = t.limiter.interrupts) = [] := by
    simpa [List.filter_eq_nil_iff] using told
  simp [slots, none]

theorem slots_of_calm (calm : t.Calm) : t.slots = t.waiting.map (·.deadline) ++ t.admitted := by
  have all : t.waiting.filter (·.seen = t.limiter.interrupts) = t.waiting :=
    List.filter_eq_self.mpr fun sleeper mem => decide_eq_true (calm sleeper mem)
  rw [slots, all]

/-- Somebody who waits for a slot of the time is calm only with all the others. -/
theorem Sound.calm (sound : t.Sound budget) {sleeper : Sleeper} (mem : sleeper ∈ t.waiting)
    (left : sleeper.seen = t.limiter.interrupts) : t.Calm :=
  sound.alike.resolve_right fun told => told sleeper mem left

theorem Sound.go {limiter : Limiter} (sound : t.Sound budget) (calm : t.Calm)
    (reserved : t.limiter.reserve t.now = (.go, limiter)) :
    Sound budget { t with limiter, admitted := t.now :: t.admitted } := by
  obtain ⟨rfl, free⟩ := Limiter.reserve_eq_go sound.limited reserved
  have behind : ∀ slot ∈ t.slots, slot + budget ≤ t.now := by
    intro slot mem
    obtain ⟨last, given, le⟩ := sound.ahead calm slot mem
    have := free last given
    omega
  let t' : Turnstile :=
    { t with limiter := t.limiter.withFrame t.now, admitted := t.now :: t.admitted }
  have calm' : t'.Calm := calm
  have slots : t'.slots.Perm (t.now :: t.slots) := by
    rw [slots_of_calm calm, slots_of_calm calm']
    exact List.perm_middle
  refine ⟨sound.limited, ?_, ?_, fun _ slot mem => ⟨t.now, rfl, ?_⟩, sound.seen, .inl calm⟩
  · rw [slots.pairwise_iff Apart.symm]
    exact .cons (fun slot mem => .inr (behind slot mem)) sound.apart
  · intro frame mem
    cases List.mem_cons.mp mem with
    | inl new => exact new.le
    | inr old => exact sound.past frame old
  · cases List.mem_cons.mp (slots.mem_iff.mp mem) with
    | inl new => exact new.le
    | inr old =>
      have := behind slot old
      omega

theorem Sound.wait {limiter : Limiter} {deadline seen : Nat} (sound : t.Sound budget)
    (calm : t.Calm) (reserved : t.limiter.reserve t.now = (.wait deadline seen, limiter)) :
    Sound budget { t with limiter, waiting := ⟨deadline, seen⟩ :: t.waiting } := by
  obtain ⟨rfl, rfl, -, last, given, rfl⟩ := Limiter.reserve_eq_wait sound.limited reserved
  have behind : ∀ slot ∈ t.slots, slot ≤ last := by
    intro slot mem
    obtain ⟨last', given', le⟩ := sound.ahead calm slot mem
    cases given.symm.trans given'
    exact le
  let t' : Turnstile := { t with
    limiter := t.limiter.withFrame (last + budget)
    waiting := ⟨last + budget, t.limiter.interrupts⟩ :: t.waiting }
  have calm' : t'.Calm := by
    intro sleeper mem
    cases List.mem_cons.mp mem with
    | inl new => rw [new]; rfl
    | inr old => exact calm sleeper old
  have slots : t'.slots = (last + budget) :: t.slots := by
    rw [slots_of_calm calm, slots_of_calm calm']
    rfl
  refine ⟨sound.limited, ?_, sound.past, fun _ slot mem => ⟨last + budget, rfl, ?_⟩, ?_, .inl calm'⟩
  · show t'.slots.Pairwise (Apart budget)
    rw [slots]
    refine .cons (fun slot mem => .inr ?_) sound.apart
    have := behind slot mem
    omega
  · rw [show _ = _ from slots] at mem
    cases List.mem_cons.mp mem with
    | inl new => exact new.le
    | inr old =>
      have := behind slot old
      omega
  · intro sleeper mem
    cases List.mem_cons.mp mem with
    | inl new => rw [new]; exact Nat.le_refl _
    | inr old => exact sound.seen sleeper old

theorem Sound.interrupt (sound : t.Sound budget) :
    Sound budget { t with limiter := t.limiter.interrupt } := by
  have told : ∀ sleeper ∈ t.waiting, sleeper.seen ≠ t.limiter.interrupt.interrupts := by
    intro sleeper mem
    have := sound.seen sleeper mem
    simp only [Limiter.interrupt]
    omega
  have slots : slots { t with limiter := t.limiter.interrupt } = t.admitted := slots_of_told told
  have sub : t.admitted.Sublist t.slots := List.sublist_append_right ..
  refine ⟨sound.limited, ?_, sound.past, fun calm slot mem => ?_, fun sleeper mem => ?_, .inr told⟩
  · rw [slots]
    exact sound.apart.sublist sub
  · -- Nobody waits at all.
    rw [slots] at mem
    exact sound.ahead (fun sleeper mem => absurd (calm sleeper mem) (told sleeper mem)) slot
      (sub.subset mem)
  · exact Nat.le_succ_of_le (sound.seen sleeper mem)

theorem Sound.expire {sleeper : Sleeper} (sound : t.Sound budget) (mem : sleeper ∈ t.waiting)
    (due : sleeper.deadline ≤ t.now) (left : sleeper.seen = t.limiter.interrupts) :
    Sound budget { t with
      waiting := t.waiting.erase sleeper, admitted := sleeper.deadline :: t.admitted } := by
  have calm := sound.calm mem left
  have calm' : Calm { t with
      waiting := t.waiting.erase sleeper, admitted := sleeper.deadline :: t.admitted } :=
    fun other mem => calm other (List.mem_of_mem_erase mem)
  have slots : List.Perm (slots { t with
      waiting := t.waiting.erase sleeper, admitted := sleeper.deadline :: t.admitted }) t.slots := by
    rw [slots_of_calm calm, slots_of_calm calm']
    refine List.perm_middle.trans ?_
    exact ((List.perm_cons_erase mem).map _).symm.append_right t.admitted
  refine ⟨sound.limited, ?_, fun frame mem => ?_, fun _ slot mem => ?_, fun other mem => ?_,
    .inl calm'⟩
  · rw [slots.pairwise_iff Apart.symm]
    exact sound.apart
  · cases List.mem_cons.mp mem with
    | inl new => exact new.trans_le due
    | inr old => exact sound.past frame old
  · exact sound.ahead calm slot (slots.mem_iff.mp mem)
  · exact sound.seen other (List.mem_of_mem_erase mem)

theorem Sound.resume {sleeper : Sleeper} (sound : t.Sound budget) (mem : sleeper ∈ t.waiting)
    (told : sleeper.seen ≠ t.limiter.interrupts) :
    Sound budget { t with
      limiter := t.limiter.wakeInterrupted t.now, waiting := t.waiting.erase sleeper } := by
  have all := sound.alike.resolve_left fun calm => told (calm sleeper mem)
  have others : ∀ other ∈ t.waiting.erase sleeper, other.seen ≠ t.limiter.interrupts :=
    fun other mem => all other (List.mem_of_mem_erase mem)
  have slots : slots { t with
      limiter := t.limiter.wakeInterrupted t.now, waiting := t.waiting.erase sleeper } =
      t.admitted := slots_of_told others
  have apart := sound.apart
  rw [slots_of_told all] at apart
  refine ⟨sound.limited, ?_, sound.past, fun _ slot mem => ?_, fun other mem => ?_, .inr others⟩
  · rw [slots]
    exact apart
  · rw [slots] at mem
    exact ⟨t.now, rfl, sound.past slot mem⟩
  · exact sound.seen other (List.mem_of_mem_erase mem)

theorem Sound.step (sound : t.Sound budget) (step : Step true t t') : t'.Sound budget := by
  cases step with
  | pass ticks =>
    exact ⟨sound.limited, sound.apart, fun frame mem => Nat.le_add_right_of_le (sound.past frame mem),
      sound.ahead, sound.seen, sound.alike⟩
  | go quick reserved => exact sound.go (quick rfl) reserved
  | wait quick reserved => exact sound.wait (quick rfl) reserved
  | interrupt => exact sound.interrupt
  | expire mem due left => exact sound.expire mem due left
  | resume mem told => exact sound.resume mem told

theorem Leads.sound (leads : Leads true t t') (sound : t.Sound budget) : t'.Sound budget := by
  induction leads with
  | refl => exact sound
  | tail _ step ih => exact ih.step step

/-- Nobody has come yet. -/
def fresh (fpsLimit : Nat) : Turnstile where
  limiter := { fpsLimit }

theorem sound_fresh {fpsLimit : Nat} (pos : 0 < fpsLimit) :
    (fresh fpsLimit).Sound (1000 / fpsLimit) where
  limited := Limiter.budget?_of_pos pos
  apart := .nil
  past := nofun
  ahead _ := nofun
  seen := nofun
  alike := .inl nofun

/-- As long as callers who were interrupted have the lock again before the next slot is reserved, no
two frames get too close. -/
theorem spaced_of_prompt {fpsLimit : Nat} (pos : 0 < fpsLimit)
    (leads : Leads true (fresh fpsLimit) t) : t.Spaced (1000 / fpsLimit) :=
  (Leads.sound leads (sound_fresh pos)).apart.sublist (List.sublist_append_right ..)

/-- A first frame was admitted, and no time has passed since. -/
def opened (fpsLimit last interrupts : Nat) (waiting : List Sleeper) : Turnstile where
  limiter := { fpsLimit, lastFrame := some last, interrupts }
  waiting := waiting
  admitted := [0]

variable {fpsLimit last interrupts : Nat} {waiting : List Sleeper}

theorem step_opened (pos : 0 < fpsLimit) : Step false (fresh fpsLimit) (opened fpsLimit 0 0 []) := by
  refine .go nofun ?_
  simp [Limiter.reserve, Limiter.budget?_of_pos, pos, fresh]

theorem step_wait (pos : 0 < fpsLimit) (taken : 0 < last + 1000 / fpsLimit) :
    Step false (opened fpsLimit last interrupts waiting)
      (opened fpsLimit (last + 1000 / fpsLimit) interrupts
        (⟨last + 1000 / fpsLimit, interrupts⟩ :: waiting)) :=
  .wait nofun (Limiter.reserve_taken (Limiter.budget?_of_pos pos) rfl taken)

theorem step_interrupt : Step false (opened fpsLimit last interrupts waiting)
    (opened fpsLimit last (interrupts + 1) waiting) :=
  .interrupt

theorem step_resume {sleeper : Sleeper} (mem : sleeper ∈ waiting) (told : sleeper.seen ≠ interrupts) :
    Step false (opened fpsLimit last interrupts waiting)
      (opened fpsLimit 0 interrupts (waiting.erase sleeper)) :=
  .resume mem told

/-- An interrupted caller sets the time of the last frame back behind a slot that was reserved
meanwhile. The second caller after that has the same slot. -/
theorem exists_collision (pos : 0 < fpsLimit) (limited : 0 < 1000 / fpsLimit) :
    ∃ t frame, Leads false (fresh fpsLimit) t ∧ t.admitted = [frame, frame, 0] := by
  have taken (last : Nat) : 0 < last + 1000 / fpsLimit := by omega
  let slot := 0 + 1000 / fpsLimit
  let behind : Sleeper := ⟨slot + 1000 / fpsLimit, 1⟩
  have waits : Leads false (fresh fpsLimit) (opened fpsLimit slot 0 [⟨slot, 0⟩]) :=
    (Relation.ReflTransGen.single (step_opened pos)).tail (step_wait pos (taken 0))
  have overtaken : Leads false (fresh fpsLimit)
      (opened fpsLimit behind.deadline 1 [behind, ⟨slot, 0⟩]) :=
    (waits.tail step_interrupt).tail (step_wait pos (taken slot))
  have back : Leads false (fresh fpsLimit) (opened fpsLimit 0 1 [behind]) := by
    have gone : [behind, ⟨slot, 0⟩].erase ⟨slot, 0⟩ = [behind] := by simp [behind]
    rw [← gone]
    exact overtaken.tail (step_resume (by simp) Nat.zero_ne_one)
  have again : Leads false (fresh fpsLimit)
      (opened fpsLimit behind.deadline 1 [behind, ⟨slot, 1⟩, behind]) :=
    (back.tail (step_wait pos (taken 0))).tail (step_wait pos (taken slot))
  let late : Turnstile := { opened fpsLimit behind.deadline 1 [behind, ⟨slot, 1⟩, behind] with
    now := behind.deadline }
  have due : Leads false (fresh fpsLimit) late := by
    have passes := again.tail (.pass behind.deadline)
    rwa [show (opened fpsLimit behind.deadline 1 [behind, ⟨slot, 1⟩, behind]).now + behind.deadline =
      behind.deadline from Nat.zero_add _] at passes
  have one : Step false late _ := .expire List.mem_cons_self le_rfl rfl
  have mem : behind ∈ late.waiting.erase behind := by simp [late, opened]
  exact ⟨_, behind.deadline, (due.tail one).tail (.expire mem le_rfl rfl), rfl⟩

/-- In any order of the threads frames are a budget apart just if a limit is none, as one of more than
a thousand is. -/
theorem spaced_iff (pos : 0 < fpsLimit) :
    (∀ t, Leads false (fresh fpsLimit) t → t.Spaced (1000 / fpsLimit)) ↔ 1000 < fpsLimit := by
  constructor
  · intro spaced
    by_contra limit
    have limited : 0 < 1000 / fpsLimit := Nat.div_pos (by omega) pos
    obtain ⟨t, frame, leads, admitted⟩ := exists_collision pos limited
    have apart := spaced t leads
    rw [Spaced, admitted] at apart
    have := (List.pairwise_cons.mp apart).1 frame List.mem_cons_self
    unfold Apart at this
    omega
  · intro unlimited t _
    rw [Nat.div_eq_of_lt unlimited]
    exact List.pairwise_of_forall fun a b => Nat.le_total a b

end Turnstile

end Handset
