import Handset.Proofs.Resizing

/-! What an overlay was told last. A layout is published in one step and told in another, and a new
overlay is told before it is installed: where such calls of two threads overlap, the overlay may be
left with a layout that is no longer that of the canvas. -/

namespace Handset

/-- The call is on its way to an overlay, with a layout or to install it. -/
def Stride.Notifies : Option Stride → Prop
  | some (.published _) => True
  | some (.telling ..) => True
  | some (.measured ..) => True
  | some (.announced _) => True
  | _ => False

namespace Resizing

/-- One thread at most is on its way to an overlay. -/
def Alone (r : Resizing) : Prop :=
  ∀ thread other, Stride.Notifies (r.calls thread) → Stride.Notifies (r.calls other) →
    thread = other

/-- The layout that a call passes on is that of the canvas. -/
def PassesOn (r : Resizing) : Option Stride → Prop
  | some (.published layout) => layout = r.canvas.layout
  | some (.telling overlay layout) =>
    layout = r.canvas.layout ∧ ∀ installed, r.overlay = some installed → installed = overlay
  | some (.measured _ layout) => layout = r.canvas.layout
  | some (.announced overlay) => r.told overlay = some r.canvas.layout.geometry
  | _ => True

/-- The overlay knows the layout of the canvas, unless a thread is on its way to tell it. -/
structure Informed (r : Resizing) : Prop where
  passesOn (thread : Nat) : r.PassesOn (r.calls thread)
  installed {overlay : Nat} (quiet : ∀ thread, ¬ Stride.Notifies (r.calls thread))
    (installed : r.overlay = some overlay) : r.told overlay = some r.canvas.layout.geometry

variable {r r' : Resizing} {thread : Nat} {call before : Option Stride}

theorem passesOn_of_not (silent : ¬ Stride.Notifies call) : r.PassesOn call := by
  unfold PassesOn
  split <;> first | trivial | exact absurd trivial silent

theorem informed_goOn (own : r.PassesOn call)
    (others : ∀ other, other ≠ thread → r.PassesOn (r.calls other))
    (installed : ¬ Stride.Notifies call →
      (∀ other, other ≠ thread → ¬ Stride.Notifies (r.calls other)) →
      ∀ overlay, r.overlay = some overlay → r.told overlay = some r.canvas.layout.geometry) :
    (r.goOn thread call).Informed where
  passesOn other := by
    rw [calls_goOn]
    split
    · exact own
    · rename_i differ
      exact others other differ
  installed {overlay} quiet known := by
    refine installed ?_ (fun other differ => ?_) overlay known
    · have silent := quiet thread
      rwa [calls_goOn, if_pos rfl] at silent
    · have silent := quiet other
      rwa [calls_goOn, if_neg differ] at silent

/-- A thread that has nothing to do with overlays goes on. -/
theorem Informed.goOn (informed : r.Informed) {canvas : Canvas} {stale : Bool}
    (layout : canvas.layout = r.canvas.layout) (stands : r.calls thread = before)
    (silent : ¬ Stride.Notifies before) (silent' : ¬ Stride.Notifies call) :
    ({ r with canvas, stale }.goOn thread call).Informed := by
  refine informed_goOn (passesOn_of_not silent') (fun other _ => ?_) fun _ quiet overlay known => ?_
  · have passes := informed.passesOn other
    unfold PassesOn at passes ⊢
    simpa only [layout] using passes
  · have told := informed.installed (fun other => ?_) known
    · simpa only [layout] using told
    · by_cases same : other = thread
      · rw [same, stands]
        exact silent
      · exact quiet other same

theorem Alone.silent (alone : r.Alone) (notifies : Stride.Notifies (r.calls thread)) (other : Nat)
    (differ : other ≠ thread) : ¬ Stride.Notifies (r.calls other) :=
  fun too => differ (alone other thread too notifies)

variable {overlay : Nat} {layout : ScreenLayout}

theorem calls_goOn_self : (r.goOn thread call).calls thread = call := by
  rw [calls_goOn, if_pos rfl]

/-- A thread that publishes a layout is alone from then on. -/
theorem informed_publish (alone : ({ r with canvas := { r.canvas with layout } }.goOn thread
      (some (.published layout))).Alone) :
    ({ r with canvas := { r.canvas with layout } }.goOn thread
      (some (.published layout))).Informed := by
  refine informed_goOn rfl (fun other differ => ?_) fun silent => absurd trivial silent
  have silent := alone.silent (by rw [calls_goOn_self]; trivial) other differ
  rw [calls_goOn, if_neg differ] at silent
  exact passesOn_of_not silent

theorem Informed.look (informed : r.Informed)
    (published : r.calls thread = some (.published layout)) :
    (r.goOn thread (r.overlay.map (.telling · layout))).Informed := by
  have passes := informed.passesOn thread
  rw [published] at passes
  cases known : r.overlay with
  | none =>
    refine informed_goOn trivial (fun other _ => informed.passesOn other) ?_
    intro _ _ overlay known'
    simp [known] at known'
  | some overlay =>
    refine informed_goOn ⟨passes, ?_⟩ (fun other _ => informed.passesOn other)
      fun silent => absurd trivial silent
    intro installed known'
    exact Option.some.inj (known'.symm.trans known)

theorem Informed.tell (informed : r.Informed) (alone : r.Alone)
    (telling : r.calls thread = some (.telling overlay layout)) :
    ((r.tell overlay layout).goOn thread none).Informed := by
  have passes := informed.passesOn thread
  rw [telling] at passes
  have silent := alone.silent (by rw [telling]; trivial)
  refine informed_goOn trivial (fun other differ => passesOn_of_not (silent other differ)) ?_
  intro _ _ installed known
  rw [passes.2 installed known]
  simp only [Resizing.tell, Function.update_self, passes.1]

theorem Informed.announce (informed : r.Informed) (alone : r.Alone)
    (measured : r.calls thread = some (.measured overlay layout)) :
    ((r.tell overlay layout).goOn thread (some (.announced overlay))).Informed := by
  have passes : layout = r.canvas.layout := by
    have passes := informed.passesOn thread
    rw [measured] at passes
    exact passes
  have silent := alone.silent (by rw [measured]; trivial)
  refine informed_goOn ?_ (fun other differ => passesOn_of_not (silent other differ))
    fun silent => absurd trivial silent
  simp only [PassesOn, Resizing.tell, Function.update_self, passes]

theorem Informed.install (informed : r.Informed) (alone : r.Alone)
    (announced : r.calls thread = some (.announced overlay)) :
    ({ r with overlay := some overlay }.goOn thread none).Informed := by
  have told := informed.passesOn thread
  rw [announced] at told
  have silent := alone.silent (by rw [announced]; trivial)
  refine informed_goOn trivial (fun other differ => passesOn_of_not (silent other differ)) ?_
  intro _ _ installed known
  cases known
  exact told

theorem Informed.keep (informed : r.Informed) {canvas : Canvas} {stale : Bool}
    (layout : canvas.layout = r.canvas.layout) : Informed { r with canvas, stale } where
  passesOn thread := by
    have passes := informed.passesOn thread
    unfold PassesOn at passes ⊢
    simpa only [layout] using passes
  installed quiet known := by
    have told := informed.installed quiet known
    simpa only [layout] using told

theorem Informed.remove (informed : r.Informed) : Informed { r with overlay := none } where
  passesOn thread := by
    have passes := informed.passesOn thread
    change PassesOn _ (r.calls thread)
    cases stands : r.calls thread with
    | none => trivial
    | some stride =>
      rw [stands] at passes
      cases stride with
      | telling overlay layout => exact ⟨passes.1, nofun⟩
      | _ => exact passes
  installed _ known := by cases known

theorem Step.informed (step : r.Step r') (alone : r.Alone) (alone' : r'.Alone)
    (informed : r.Informed) : r'.Informed := by
  cases step with
  | setFullscreen thread fullscreen idle new => exact informed.goOn rfl idle id id
  | setDisplaySize thread width height idle => exact informed.goOn rfl idle id id
  | fit written free computed => exact informed.goOn rfl written id id
  | fault written free computed => exact informed.goOn rfl written id id
  | publish fitted => exact informed_publish alone'
  | look published => exact informed.look published
  | tell telling => exact informed.tell alone telling
  | measure overlay idle =>
    refine informed_goOn rfl (fun other _ => informed.passesOn other)
      fun silent => absurd trivial silent
  | announce measured => exact informed.announce alone measured
  | install announced => exact informed.install alone announced
  | remove => exact informed.remove
  | defer layout => exact informed.keep layout
  | other layout sizing => exact informed.keep layout

/-- What threads make of it that leave each other alone on the way to an overlay. -/
abbrev LeadsAlone : Resizing → Resizing → Prop :=
  Relation.ReflTransGen fun r r' => Step r r' ∧ r'.Alone

theorem LeadsAlone.informed (leads : r.LeadsAlone r') (alone : r.Alone) (informed : r.Informed) :
    r'.Informed ∧ r'.Alone := by
  induction leads with
  | refl => exact ⟨informed, alone⟩
  | tail _ step ih => exact ⟨step.1.informed ih.2 step.2 ih.1, step.2⟩

/-- As long as one thread at a time is on its way to an overlay, the one that is installed knows the
layout of the canvas whenever no thread is. -/
theorem told_of_alone {canvas : Canvas} (leads : LeadsAlone { canvas } r)
    (quiet : ∀ thread, ¬ Stride.Notifies (r.calls thread)) (installed : r.overlay = some overlay) :
    r.told overlay = some r.canvas.layout.geometry := by
  have begins : Informed { canvas } := ⟨fun _ => trivial, nofun⟩
  exact (leads.informed (by nofun) begins).1.installed quiet installed

/-- A thread has told a new overlay of a pixel, when another has a larger display. -/
def overtaken : Resizing :=
  let announced : Resizing :=
    (Resizing.tell (Resizing.goOn { canvas := pixelCanvas } 0
      (some (.measured 0 pixelCanvas.layout))) 0 pixelCanvas.layout).goOn 0 (some (.announced 0))
  { announced with canvas := pixelCanvas.setDisplaySize 3 2 }.goOn 1 (some .written)

theorem leads_overtaken : Leads { canvas := pixelCanvas } overtaken := by
  have idle : Resizing.calls { canvas := pixelCanvas } 0 = none := rfl
  have measured : (Resizing.goOn { canvas := pixelCanvas } 0
      (some (.measured 0 pixelCanvas.layout))).calls 0 =
        some (.measured 0 pixelCanvas.layout) := rfl
  have measures : Leads { canvas := pixelCanvas } _ := .single (.measure 0 idle)
  exact (measures.tail (.announce measured)).tail (.setDisplaySize 1 3 2 rfl)

theorem overtaken_computes : ∃ changed canvas, overtaken.canvas.updateSize = .ok (changed, canvas) ∧
    canvas.layout.displaySize = ⟨3, 2⟩ :=
  ⟨_, _, rfl, rfl⟩

/-- Where two calls overlap, an overlay may be installed that knows an old layout only. -/
theorem told_late : ∃ r, Leads { canvas := pixelCanvas } r ∧ (∀ thread, r.calls thread = none) ∧
    r.overlay = some 0 ∧ r.told 0 ≠ some r.canvas.layout.geometry := by
  obtain ⟨changed, canvas, updated, size⟩ := overtaken_computes
  have free : overtaken.Free := by
    intro thread layout
    match thread with
    | 0 => exact nofun
    | 1 => exact nofun
    | thread + 2 => exact nofun
  have waits : overtaken.calls 1 = some .written := rfl
  have publishes := leads_overtaken.trans (leads_updateSize waits free updated)
  have looks := publishes.tail (.look calls_goOn_self)
  have announced : (({ overtaken with canvas, stale := false }.goOn 1
      (some (.published canvas.layout))).goOn 1 none).calls 0 = some (.announced 0) := rfl
  refine ⟨_, looks.tail (.install announced), fun thread => ?_, rfl, fun told => ?_⟩
  · match thread with
    | 0 => rfl
    | 1 => rfl
    | thread + 2 => rfl
  · have same : some pixelCanvas.layout.geometry = some canvas.layout.geometry := told
    have screen := congrArg Prod.fst (Option.some.inj same)
    have width : pixelCanvas.layout.displayWidth = canvas.layout.displayWidth :=
      congrArg Rect.width screen
    have larger : canvas.layout.displayWidth = 3 := congrArg Size.width size
    rw [larger] at width
    exact absurd width (by decide)

end Resizing

end Handset
