import Handset.Proofs.World

/-! Lawful logs. The marks of a log tell of each event whether it waits, is being handled, or is
over, and a lawful log has only marks that fit what went before. -/

namespace Handset

variable {Work : Type}

/-- What has become of an event. -/
inductive Life
  | unborn
  | waiting
  | running (way : Way)
  | done
  | removed
  deriving DecidableEq, Repr

/-- A life goes through its stages in one direction only. -/
def Life.Precedes : Life → Life → Prop
  | unborn, _ => True
  | waiting, later => later ≠ unborn
  | running way, later => later = running way ∨ later = done
  | done, later => later = done
  | removed, later => later = removed

theorem Life.Precedes.refl (life : Life) : life.Precedes life := by
  cases life <;> simp [Precedes]

theorem Life.Precedes.trans {a b c : Life} (hab : a.Precedes b) (hbc : b.Precedes c) :
    a.Precedes c := by
  cases a with
  | unborn => trivial
  | waiting => cases b <;> simp_all [Precedes]; rcases hbc with rfl | rfl <;> simp
  | running way => rcases hab with rfl | rfl <;> simp_all [Precedes]
  | done | removed => cases hab; exact hbc

/-- The life of the event with a number, after the marks of a log. -/
def life (id : Nat) : List (Mark Work) → Life
  | [] => .unborn
  | .admitted event _ :: log => if event.id = id then .waiting else life id log
  | .began other way :: log => if other = id then .running way else life id log
  | .finished other :: log => if other = id then .done else life id log
  | .removed other :: log => if other = id then .removed else life id log
  | _ :: log => life id log

/-- The event whose life a mark changes. -/
def Mark.subject : Mark Work → Option Nat
  | admitted event _ => some event.id
  | began id _ => some id
  | finished id => some id
  | removed id => some id
  | _ => none

def Admitted (log : List (Mark Work)) (event : Event Work) : Prop :=
  ∃ cause, .admitted event cause ∈ log

/-- The event with this number was let in, and has the tag. -/
def HasTag (log : List (Mark Work)) (id : Nat) (tag : EventTag) : Prop :=
  ∃ event, Admitted log event ∧ event.id = id ∧ event.tag = tag

/-- A paint cycle has found out whether the canvas is shown. -/
def Looked (log : List (Mark Work)) (id : Nat) : Prop :=
  .painted id ∈ log ∨ .skipped id ∈ log

/-- What must have happened for a mark to be the next. Events begin in turn one after the other and
in the order of their numbers; in place only a repaint begins, and only when there is no other that
runs or waits. -/
def Fits (log : List (Mark Work)) : Mark Work → Prop
  | .admitted event _ => ∀ id, event.id ≤ id → life id log = .unborn
  | .began id .inTurn => life id log = .waiting ∧
      (∀ other < id, life other log ≠ .waiting) ∧ ∀ other, life other log ≠ .running .inTurn
  | .began id .inPlace => life id log = .waiting ∧ HasTag log id .paint ∧
      ∀ other ≠ id, HasTag log other .paint → life other log = .done ∨ life other log = .removed
  | .finished id => (∃ way, life id log = .running way) ∧
      (HasTag log id .paint → Looked log id) ∧
      (HasTag log id .displayResized → .resized id ∈ log ∨ .faulted (some id) ∈ log)
  | .removed id => life id log = .waiting
  | .painted id => (∃ way, life id log = .running way) ∧ HasTag log id .paint ∧ ¬ Looked log id
  | .skipped id => (∃ way, life id log = .running way) ∧ HasTag log id .paint ∧ ¬ Looked log id
  | .resized id => life id log = .running .inTurn ∧ HasTag log id .displayResized ∧
      .resized id ∉ log
  | .told .. => True
  | .composed _ => True
  | .faulted _ => True

inductive Lawful : List (Mark Work) → Prop
  | nil : Lawful []
  | cons {mark : Mark Work} {log : List (Mark Work)} :
      Fits log mark → Lawful log → Lawful (mark :: log)

variable {after before log : List (Mark Work)} {mark : Mark Work} {event other : Event Work}
  {id : Nat} {way : Way} {tag : EventTag}

theorem Admitted.mono (h : Admitted before event) (sub : before ⊆ log) : Admitted log event :=
  h.imp fun _ mem => sub mem

theorem HasTag.mono (h : HasTag before id tag) (sub : before ⊆ log) : HasTag log id tag :=
  h.imp fun _ ⟨admitted, facts⟩ => ⟨admitted.mono sub, facts⟩

theorem Admitted.of_cons (h : Admitted (mark :: log) event)
    (old : ∀ event cause, mark ≠ .admitted event cause) : Admitted log event := by
  obtain ⟨cause, mem⟩ := h
  exact ⟨cause, (List.mem_cons.mp mem).resolve_left (old event cause).symm⟩

theorem HasTag.of_cons (h : HasTag (mark :: log) id tag)
    (old : ∀ event cause, mark ≠ .admitted event cause) : HasTag log id tag :=
  h.imp fun _ ⟨admitted, facts⟩ => ⟨admitted.of_cons old, facts⟩

theorem Looked.mono (h : Looked before id) (sub : before ⊆ log) : Looked log id :=
  h.imp (@sub _) (@sub _)

theorem Lawful.suffix (lawful : Lawful (after ++ before)) : Lawful before := by
  induction after with
  | nil => exact lawful
  | cons mark after ih =>
    cases lawful with
    | cons _ rest => exact ih rest

theorem Lawful.tail (lawful : Lawful (mark :: log)) : Lawful log := by
  cases lawful with
  | cons _ rest => exact rest

theorem Lawful.fits (lawful : Lawful (after ++ mark :: before)) : Fits before mark := by
  cases lawful.suffix with
  | cons fits _ => exact fits

theorem life_of_ne (ne : mark.subject ≠ some id) : life id (mark :: log) = life id log := by
  cases mark with
  | admitted | began | finished | removed => exact if_neg fun same => ne (congrArg some same)
  | painted | skipped | resized | told | composed | faulted => rfl

/-- A mark that neither ends a stage of a life nor begins it leaves all others in it. -/
theorem life_keeps {stage : Life} (subject : mark.subject = some id) (was : life id log ≠ stage)
    (is : life id (mark :: log) ≠ stage) (other : Nat) :
    life other (mark :: log) = stage ↔ life other log = stage := by
  by_cases same : other = id
  · subst same
    exact iff_of_false is was
  · rw [life_of_ne (by simpa [subject] using Ne.symm same)]

theorem life_cons (fits : Fits log mark) : (life id log).Precedes (life id (mark :: log)) := by
  by_cases subject : mark.subject = some id
  · cases mark with
    | admitted event cause =>
      cases subject
      rw [fits event.id (Nat.le_refl _)]
      trivial
    | began other way =>
      cases subject
      have waiting : life id log = .waiting := by cases way <;> exact fits.1
      simp [life, waiting, Life.Precedes]
    | finished other =>
      cases subject
      obtain ⟨way, running⟩ := fits.1
      simp [life, running, Life.Precedes]
    | removed other =>
      cases subject
      have waiting : life id log = .waiting := fits
      simp [life, waiting, Life.Precedes]
    | painted | skipped | resized | told | composed | faulted => cases subject
  · rw [life_of_ne subject]
    exact .refl _

/-- Whatever happens later, a life does not go back. -/
theorem Lawful.life_append (lawful : Lawful (after ++ before)) :
    (life id before).Precedes (life id (after ++ before)) := by
  induction after with
  | nil => exact .refl _
  | cons mark after ih =>
    cases lawful with
    | cons fits rest => exact (ih rest).trans (life_cons fits)

/-! What a life says of the marks, and a mark of the life. -/

theorem life_marked (id : Nat) (log : List (Mark Work)) :
    match life id log with
    | .unborn => True
    | .waiting => ∃ event, Admitted log event ∧ event.id = id
    | .running way => .began id way ∈ log
    | .done => .finished id ∈ log
    | .removed => .removed id ∈ log := by
  induction log with
  | nil => trivial
  | cons mark log ih =>
    have keep (same : life id (mark :: log) = life id log) :
        match life id (mark :: log) with
        | .unborn => True
        | .waiting => ∃ event, Admitted (mark :: log) event ∧ event.id = id
        | .running way => .began id way ∈ mark :: log
        | .done => .finished id ∈ mark :: log
        | .removed => .removed id ∈ mark :: log := by
      rw [same]
      cases now : life id log <;> simp only [now] at ih ⊢
      · obtain ⟨event, admitted, rfl⟩ := ih
        exact ⟨event, admitted.mono (List.subset_cons_self ..), rfl⟩
      · exact List.mem_cons_of_mem _ ih
      · exact List.mem_cons_of_mem _ ih
      · exact List.mem_cons_of_mem _ ih
    by_cases subject : mark.subject = some id
    · cases mark with
      | admitted event cause =>
        cases subject
        simp only [life, if_true]
        exact ⟨event, ⟨cause, List.mem_cons_self⟩, rfl⟩
      | began | finished | removed =>
        cases subject
        simp [life]
      | painted | skipped | resized | told | composed | faulted => cases subject
    · exact keep (life_of_ne subject)

theorem began_mem (h : life id log = .running way) : .began id way ∈ log := by
  have marked := life_marked id log
  rwa [h] at marked

theorem finished_mem (h : life id log = .done) : .finished id ∈ log := by
  have marked := life_marked id log
  rwa [h] at marked

theorem removed_mem (h : life id log = .removed) : .removed id ∈ log := by
  have marked := life_marked id log
  rwa [h] at marked

theorem Lawful.admitted (lawful : Lawful log) (h : life id log ≠ .unborn) :
    ∃ event, Admitted log event ∧ event.id = id := by
  induction lawful with
  | nil => exact absurd rfl h
  | @cons mark log fits lawful ih =>
    by_cases born : life id log = .unborn
    · by_cases subject : mark.subject = some id
      · cases mark with
        | admitted event cause =>
          cases subject
          exact ⟨event, ⟨cause, List.mem_cons_self⟩, rfl⟩
        | began other way =>
          cases subject
          have waiting : life id log = .waiting := by cases way <;> exact fits.1
          simp [waiting] at born
        | finished other =>
          cases subject
          obtain ⟨way, running⟩ := fits.1
          simp [running] at born
        | removed other =>
          cases subject
          have waiting : life id log = .waiting := fits
          simp [waiting] at born
        | painted | skipped | resized | told | composed | faulted => cases subject
      · exact absurd ((life_of_ne subject).trans born) h
    · obtain ⟨event, admitted, rfl⟩ := ih born
      exact ⟨event, admitted.mono (List.subset_cons_self ..), rfl⟩

theorem Life.Precedes.born {a b : Life} (h : a.Precedes b) (born : a ≠ .unborn) : b ≠ .unborn := by
  rintro rfl
  cases a with
  | unborn => exact born rfl
  | waiting => exact h rfl
  | running way => rcases h with h | h <;> cases h
  | done | removed => cases h

/-- Takes a log apart at one of its marks. -/
theorem Lawful.split (lawful : Lawful log) (mem : mark ∈ log) :
    ∃ before, Fits before mark ∧ mark :: before ⊆ log ∧
      ∀ id, (life id (mark :: before)).Precedes (life id log) := by
  obtain ⟨after, before, rfl⟩ := List.append_of_mem mem
  exact ⟨before, lawful.fits, List.subset_append_right .., fun id => lawful.life_append⟩

theorem Lawful.born (lawful : Lawful log) (h : Admitted log event) :
    life event.id log ≠ .unborn := by
  obtain ⟨cause, mem⟩ := h
  obtain ⟨before, -, -, later⟩ := lawful.split mem
  have later := later event.id
  simpa [life, Life.Precedes] using later

theorem Lawful.done (lawful : Lawful log) (mem : .finished id ∈ log) : life id log = .done := by
  obtain ⟨before, -, -, later⟩ := lawful.split mem
  have later := later id
  simpa [life, Life.Precedes] using later

theorem Lawful.removed (lawful : Lawful log) (mem : .removed id ∈ log) :
    life id log = .removed := by
  obtain ⟨before, -, -, later⟩ := lawful.split mem
  have later := later id
  simpa [life, Life.Precedes] using later

theorem Lawful.began (lawful : Lawful log) (mem : .began id way ∈ log) :
    life id log = .running way ∨ life id log = .done := by
  obtain ⟨before, -, -, later⟩ := lawful.split mem
  have later := later id
  simpa [life, Life.Precedes] using later

theorem Lawful.not_looked (lawful : Lawful log) (waiting : life id log = .waiting) :
    ¬ Looked log id := by
  rintro (mem | mem)
  all_goals
    obtain ⟨before, ⟨⟨way, running⟩, -⟩, -, later⟩ := lawful.split mem
    have later := later id
    simp [life, running, waiting, Life.Precedes] at later

theorem Lawful.not_resized (lawful : Lawful log) (waiting : life id log = .waiting) :
    .resized id ∉ log := by
  intro mem
  obtain ⟨before, ⟨running, -⟩, -, later⟩ := lawful.split mem
  have later := later id
  simp [life, running, waiting, Life.Precedes] at later

/-- A number belongs to one event. -/
theorem Lawful.unique (lawful : Lawful log) (h : Admitted log event) (h' : Admitted log other)
    (same : event.id = other.id) : event = other := by
  induction lawful with
  | nil => exact absurd h.choose_spec List.not_mem_nil
  | @cons mark log fits lawful ih =>
    obtain ⟨cause, mem⟩ := h
    obtain ⟨cause', mem'⟩ := h'
    rcases List.mem_cons.mp mem with rfl | old
    · rcases List.mem_cons.mp mem' with eq | old'
      · cases eq
        rfl
      · exact absurd (fits other.id (by omega)) (lawful.born ⟨cause', old'⟩)
    · rcases List.mem_cons.mp mem' with rfl | old'
      · exact absurd (fits event.id (by omega)) (lawful.born ⟨cause, old⟩)
      · exact ih ⟨cause, old⟩ ⟨cause', old'⟩

theorem Lawful.hasTag_unique {tag' : EventTag} (lawful : Lawful log) (h : HasTag log id tag)
    (h' : HasTag log id tag') : tag = tag' := by
  obtain ⟨event, admitted, rfl, rfl⟩ := h
  obtain ⟨other, admitted', same, rfl⟩ := h'
  rw [lawful.unique admitted admitted' same.symm]

/-- Numbers are given in order: what is let in later has a larger one. -/
theorem Lawful.admitted_before (lawful : Lawful (after ++ before))
    (h : Admitted (after ++ before) event) (born : life id before ≠ .unborn) (le : event.id ≤ id) :
    Admitted before event := by
  induction after with
  | nil => exact h
  | cons mark after ih =>
    cases lawful with
    | cons fits rest =>
      obtain ⟨cause, mem⟩ := h
      rcases List.mem_cons.mp mem with rfl | mem
      · exact absurd (fits id le) (rest.life_append.born born)
      · exact ih rest ⟨cause, mem⟩

theorem Lawful.hasTag_before (lawful : Lawful (after ++ before))
    (h : HasTag (after ++ before) id tag) (born : life id before ≠ .unborn) :
    HasTag before id tag := by
  obtain ⟨event, admitted, rfl, rfl⟩ := h
  exact ⟨event, lawful.admitted_before admitted born (Nat.le_refl _), rfl, rfl⟩

/-- When an event begins in turn, those let in before it are over, but for a repaint in place. -/
theorem Lawful.began_inTurn (lawful : Lawful (after ++ .began id .inTurn :: before))
    (h : Admitted (after ++ .began id .inTurn :: before) event) (lt : event.id < id) :
    life event.id before = .running .inPlace ∨ life event.id before = .done ∨
      life event.id before = .removed := by
  obtain ⟨waiting, first, alone⟩ := lawful.fits
  have early : Admitted before event := by
    have born : life id (.began id .inTurn :: before) ≠ .unborn := by simp [life]
    exact (lawful.admitted_before h born (Nat.le_of_lt lt)).of_cons (by simp)
  have born := Lawful.born lawful.suffix.tail early
  cases now : life event.id before with
  | unborn => exact absurd now born
  | waiting => exact absurd now (first _ lt)
  | running way =>
    cases way with
    | inTurn => exact absurd now (alone _)
    | inPlace => exact .inl rfl
  | done => exact .inr (.inl rfl)
  | removed => exact .inr (.inr rfl)

/-- A repaint that is over has looked whether the canvas is shown. -/
theorem Lawful.looked (lawful : Lawful log) (mem : .finished id ∈ log)
    (paint : HasTag log id .paint) : Looked log id := by
  obtain ⟨after, before, rfl⟩ := List.append_of_mem mem
  obtain ⟨⟨way, running⟩, looked, -⟩ := lawful.fits
  have here : HasTag (.finished id :: before) id .paint :=
    lawful.hasTag_before paint (by simp [life])
  have sub : before ⊆ after ++ .finished id :: before :=
    List.subset_append_of_subset_right _ (List.subset_cons_self ..)
  exact (looked (here.of_cons (by simp))).mono sub

/-- A resize that is over has brought a new layout, unless there was none. -/
theorem Lawful.resized (lawful : Lawful log) (mem : .finished id ∈ log)
    (resize : HasTag log id .displayResized) : .resized id ∈ log ∨ .faulted (some id) ∈ log := by
  obtain ⟨after, before, rfl⟩ := List.append_of_mem mem
  obtain ⟨⟨way, running⟩, -, resized⟩ := lawful.fits
  have here : HasTag (.finished id :: before) id .displayResized :=
    lawful.hasTag_before resize (by simp [life])
  have sub : before ⊆ after ++ .finished id :: before :=
    List.subset_append_of_subset_right _ (List.subset_cons_self ..)
  exact (resized (here.of_cons (by simp))).imp (@sub _) (@sub _)

theorem Lawful.looked_once (lawful : Lawful (after ++ mark :: before))
    (look : mark = .painted id ∨ mark = .skipped id) : ¬ Looked after id ∧ ¬ Looked before id := by
  have here : Looked (mark :: before) id := by
    rcases look with rfl | rfl
    · exact .inl List.mem_cons_self
    · exact .inr List.mem_cons_self
  constructor
  · intro again
    have twice : ∃ mark', mark' ∈ after ∧ (mark' = .painted id ∨ mark' = .skipped id) := by
      rcases again with mem | mem
      · exact ⟨_, mem, .inl rfl⟩
      · exact ⟨_, mem, .inr rfl⟩
    obtain ⟨mark', mem, look'⟩ := twice
    obtain ⟨late, early, rfl⟩ := List.append_of_mem mem
    rw [List.append_assoc] at lawful
    have fits := lawful.fits
    have looked : Looked (early ++ mark :: before) id := here.mono (List.subset_append_right ..)
    rcases look' with rfl | rfl
    · exact fits.2.2 looked
    · exact fits.2.2 looked
  · have fits := lawful.fits
    rcases look with rfl | rfl
    · exact fits.2.2
    · exact fits.2.2

end Handset
