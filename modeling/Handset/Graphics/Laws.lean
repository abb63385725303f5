import Handset.Graphics

/-! What a drawing makes of the graphics, step by step. -/

namespace Handset.Draw

variable {α β : Type} {drawing : Draw α} {next : α → Draw β} {g g' : Graphics}

theorem run_bind (drawing : Draw α) (next : α → Draw β) (g : Graphics) :
    (drawing >>= next).run.run g = match drawing.run.run g with
      | (.ok a, g') => (next a).run.run g'
      | (.error fault, g') => (.error fault, g') := by
  simp only [ExceptT.run_bind, StateT.run_bind]
  cases drawing.run.run g with
  | mk result g' => cases result <;> rfl

/-- A drawing in two parts comes back just if both do. -/
theorem run_bind_eq_ok {b : β} : (drawing >>= next).run.run g = (.ok b, g') ↔
    ∃ a g₁, drawing.run.run g = (.ok a, g₁) ∧ (next a).run.run g₁ = (.ok b, g') := by
  rw [run_bind]
  cases drawing.run.run g with
  | mk result g₁ =>
    cases result with
    | error fault => exact ⟨nofun, fun ⟨_, _, first, _⟩ => nomatch first⟩
    | ok a =>
      refine ⟨fun rest => ⟨a, g₁, rfl, rest⟩, ?_⟩
      rintro ⟨_, _, first, rest⟩
      cases first
      exact rest

theorem run_pen_bind (next : Pen → Draw β) (g : Graphics) :
    (pen >>= next).run.run g = (next g.pen).run.run g := by
  rw [run_bind]
  rfl

theorem run_get_bind (next : Graphics → Draw β) (g : Graphics) :
    (get >>= next).run.run g = (next g).run.run g := by
  rw [run_bind]
  rfl

/-- A computation leaves the graphics alone, and what comes after it depends on its result. -/
theorem run_liftM_bind (result : Except Fault α) (next : α → Draw β) (g : Graphics) :
    (liftM result >>= next).run.run g = match result with
      | .ok a => (next a).run.run g
      | .error fault => (.error fault, g) := by
  cases result <;> rfl

theorem run_liftM_bind_eq_ok {result : Except Fault α} {b : β} :
    (liftM result >>= next).run.run g = (.ok b, g') ↔
      ∃ a, result = .ok a ∧ (next a).run.run g = (.ok b, g') := by
  rw [run_liftM_bind]
  cases result with
  | error fault => exact ⟨nofun, fun ⟨_, first, _⟩ => nomatch first⟩
  | ok a => exact ⟨fun rest => ⟨a, rfl, rest⟩, fun ⟨_, first, rest⟩ => Except.ok.inj first ▸ rest⟩

theorem run_setPen_eq_ok {pen : Pen} :
    (setPen pen).run.run g = (.ok (), g') ↔ g' = { g with pen } :=
  ⟨fun ran => by cases ran; rfl, fun same => by rw [same]; rfl⟩

theorem run_modify_eq_ok {f : Graphics → Graphics} :
    (modify f : Draw Unit).run.run g = (.ok (), g') ↔ g' = f g :=
  ⟨fun ran => by cases ran; rfl, fun same => by rw [same]; rfl⟩

/-- The graphics before a drawing and those after it are in relation, whether it comes back or
faults. -/
def Leads (R : Graphics → Graphics → Prop) (drawing : Draw α) (g : Graphics) : Prop :=
  R g (drawing.run.run g).2

theorem leads_pen_bind {R : Graphics → Graphics → Prop} {next : Pen → Draw β}
    (rest : (next g.pen).Leads R g) : (pen >>= next).Leads R g :=
  rest

theorem leads_get_bind {R : Graphics → Graphics → Prop} {next : Graphics → Draw β}
    (rest : (next g).Leads R g) : (get >>= next).Leads R g :=
  rest

theorem leads_setPen_bind {R : Graphics → Graphics → Prop} {pen : Pen} {next : Unit → Draw β}
    (rest : (next ()).Leads (fun _ => R g) { g with pen }) : (setPen pen >>= next).Leads R g :=
  rest

/-- A computation that faults leaves the graphics alone; what comes after depends on its result. -/
theorem leads_liftM_bind {R : Graphics → Graphics → Prop} {result : Except Fault α}
    (still : R g g) (rest : ∀ a, result = .ok a → (next a).Leads R g) :
    (liftM result >>= next : Draw β).Leads R g := by
  unfold Leads at rest ⊢
  rw [run_liftM_bind]
  cases result with
  | error fault => exact still
  | ok a => exact rest a rfl

/-- What is plotted of a line at one of its points. -/
def mark (dotted : Bool) (index : Nat) (line : Line) : Draw Unit :=
  if !dotted || index % 2 == 0 then plot line.x line.y else pure ()

theorem follow_succ (dotted : Bool) (fuel index : Nat) (line : Line) :
    follow dotted (fuel + 1) index line = (do
      mark dotted index line
      if line.atEnd then return
      follow dotted fuel (index + 1) (← line.step) : Draw Unit) := by
  rw [follow, mark]
  split <;> rfl

end Handset.Draw
