import Handset.Proofs.Sessions
import Handset.Proofs.Sizing
import Mathlib.Logic.Function.Basic
import Mathlib.Logic.Relation

/-! Changes of the size among threads. A thread writes a setting, and then takes the images in hand,
reads all settings, computes the layout, fits the images to it and publishes it; after that it tells
the overlay. Between any two of these, other threads do the same. -/

namespace Handset

/-- How far a call is that changes the size or installs an overlay. Overlays are numbered. -/
inductive Stride
  /-- A setting is written, and the layout is yet to be computed. -/
  | written
  /-- The images are in hand, and fit a layout that the canvas does not have yet. -/
  | fitted (layout : ScreenLayout)
  /-- The overlay is yet to be looked up. -/
  | published (layout : ScreenLayout)
  | telling (overlay : Nat) (layout : ScreenLayout)
  | measured (overlay : Nat) (layout : ScreenLayout)
  /-- The new overlay has been told, and is yet to be installed. -/
  | announced (overlay : Nat)

/-- The call is not between its two steps: it has yet to write a setting, or has published its
layout. -/
def Stride.Aside : Option Stride → Prop
  | some .written => False
  | some (.fitted _) => False
  | _ => True

/-- Where the display and the canvas are, as an overlay is told. -/
def ScreenLayout.geometry (layout : ScreenLayout) : Rect × Rect :=
  (layout.screen, layout.placement)

/-- Each thread is in one call at most. `told` is what each overlay was told last. `stale` says that
since a layout was last computed, the settings changed without the promise of a new one, or could
not be given one. -/
structure Resizing where
  canvas : Canvas
  calls : Nat → Option Stride := fun _ => none
  overlay : Option Nat := none
  told : Nat → Option (Rect × Rect) := fun _ => none
  stale : Bool := false

namespace Resizing

def goOn (r : Resizing) (thread : Nat) (call : Option Stride) : Resizing :=
  { r with calls := Function.update r.calls thread call }

def tell (r : Resizing) (overlay : Nat) (layout : ScreenLayout) : Resizing :=
  { r with told := Function.update r.told overlay (some layout.geometry) }

/-- No thread has the images in hand. -/
def Free (r : Resizing) : Prop :=
  ∀ thread layout, r.calls thread ≠ some (.fitted layout)

/-- What one thread does at one time. -/
inductive Step (r : Resizing) : Resizing → Prop
  | setFullscreen (thread : Nat) (fullscreen : Bool) (idle : r.calls thread = none)
      (new : r.canvas.settings.fullscreen ≠ fullscreen) :
      Step r ({ r with canvas := r.canvas.setFullscreen fullscreen }.goOn thread (some .written))
  | setDisplaySize (thread : Nat) (width height : Int) (idle : r.calls thread = none) :
      Step r ({ r with canvas := r.canvas.setDisplaySize width height }.goOn thread (some .written))
  | fit {thread : Nat} {layout : ScreenLayout} (written : r.calls thread = some .written)
      (free : r.Free) (computed : r.canvas.settings.layout = .ok layout) :
      Step r ({ r with
        canvas := { r.canvas with frame := r.canvas.frame.resize layout }
        stale := false }.goOn thread (some (.fitted layout)))
  /-- There is no layout for the settings, and the call ends in a fault. -/
  | fault {thread : Nat} {fault : Fault} (written : r.calls thread = some .written) (free : r.Free)
      (computed : r.canvas.settings.layout = .error fault) :
      Step r ({ r with stale := true }.goOn thread none)
  | publish {thread : Nat} {layout : ScreenLayout}
      (fitted : r.calls thread = some (.fitted layout)) :
      Step r ({ r with canvas := { r.canvas with layout } }.goOn thread (some (.published layout)))
  | look {thread : Nat} {layout : ScreenLayout}
      (published : r.calls thread = some (.published layout)) :
      Step r (r.goOn thread (r.overlay.map (.telling · layout)))
  | tell {thread overlay : Nat} {layout : ScreenLayout}
      (telling : r.calls thread = some (.telling overlay layout)) :
      Step r ((r.tell overlay layout).goOn thread none)
  | measure {thread : Nat} (overlay : Nat) (idle : r.calls thread = none) :
      Step r (r.goOn thread (some (.measured overlay r.canvas.layout)))
  | announce {thread overlay : Nat} {layout : ScreenLayout}
      (measured : r.calls thread = some (.measured overlay layout)) :
      Step r ((r.tell overlay layout).goOn thread (some (.announced overlay)))
  | install {thread overlay : Nat} (announced : r.calls thread = some (.announced overlay)) :
      Step r ({ r with overlay := some overlay }.goOn thread none)
  | remove : Step r { r with overlay := none }
  /-- The virtual size or the scale is set, or full screen mode changes from inside a paint: this
  counts for the next layout. -/
  | defer {canvas : Canvas} (layout : canvas.layout = r.canvas.layout) :
      Step r { r with canvas, stale := true }
  /-- Anything else, such as a drawing, input, or a setting that no layout depends on. -/
  | other {canvas : Canvas} (layout : canvas.layout = r.canvas.layout)
      (sizing : canvas.settings.sizing = r.canvas.settings.sizing) : Step r { r with canvas }

/-- What threads make of it, one step after the other. -/
abbrev Leads : Resizing → Resizing → Prop :=
  Relation.ReflTransGen Step

/-- Some thread has yet to compute the layout, or the settings changed for the next one only. -/
def Due (r : Resizing) : Prop :=
  (∃ thread, r.calls thread = some .written) ∨ r.stale = true

/-- Unless a new layout is due, the last one is that of the settings: the one that a thread is about
to publish, or else the one of the canvas. -/
structure Current (r : Resizing) : Prop where
  lone {thread other : Nat} {layout layout' : ScreenLayout}
    (fitted : r.calls thread = some (.fitted layout))
    (fitted' : r.calls other = some (.fitted layout')) : thread = other
  fitted {thread : Nat} {layout : ScreenLayout} (fitted : r.calls thread = some (.fitted layout)) :
    r.Due ∨ r.canvas.settings.layout = .ok layout
  free (free : r.Free) : r.Due ∨ r.canvas.settings.layout = .ok r.canvas.layout

variable {r r' : Resizing} {thread other : Nat} {call : Option Stride}

theorem calls_goOn : (r.goOn thread call).calls other = if other = thread then call
    else r.calls other :=
  Function.update_apply ..

theorem Due.keep (due : r.Due)
    (written : ∀ thread, r.calls thread = some .written → r'.calls thread = some .written)
    (stale : r.stale = true → r'.stale = true) : r'.Due := by
  cases due with
  | inl waits =>
    obtain ⟨thread, waits⟩ := waits
    exact .inl ⟨thread, written thread waits⟩
  | inr outdated => exact .inr (stale outdated)

/-- As long as no thread computes or publishes a layout, and those that have to are still there. -/
theorem Current.keep (current : r.Current)
    (settings : r'.Due ∨ r'.canvas.settings.layout = r.canvas.settings.layout)
    (layout : r'.canvas.layout = r.canvas.layout)
    (fitted : ∀ thread layout, r'.calls thread = some (.fitted layout) ↔
      r.calls thread = some (.fitted layout))
    (due : r.Due → r'.Due) : r'.Current where
  lone at' at'' := current.lone ((fitted _ _).mp at') ((fitted _ _).mp at'')
  fitted at' := by
    cases settings with
    | inl due' => exact .inl due'
    | inr same =>
      rw [same]
      exact (current.fitted ((fitted _ _).mp at')).imp_left due
  free free := by
    cases settings with
    | inl due' => exact .inl due'
    | inr same =>
      rw [same, layout]
      refine (current.free fun thread layout at' => ?_).imp_left due
      exact free thread layout ((fitted thread layout).mpr at')

variable {before : Option Stride} {overlay : Nat} {layout : ScreenLayout}

theorem fitted_goOn (stands : r.calls thread = before) (aside : Stride.Aside before)
    (after : ∀ layout, call ≠ some (.fitted layout)) :
    (r.goOn thread call).calls other = some (.fitted layout) ↔
      r.calls other = some (.fitted layout) := by
  rw [calls_goOn]
  split
  · rename_i same
    subst same
    constructor
    · intro new
      exact absurd new (after layout)
    · intro old
      rw [← stands, old] at aside
      exact aside.elim
  · exact Iff.rfl

theorem written_goOn (stands : r.calls thread = before) (aside : Stride.Aside before)
    (waits : r.calls other = some .written) :
    (r.goOn thread call).calls other = some .written := by
  rw [calls_goOn, if_neg]
  · exact waits
  · rintro rfl
    rw [← stands, waits] at aside
    exact aside

theorem Current.goOn (current : r.Current) (stands : r.calls thread = before)
    (aside : Stride.Aside before) (after : Stride.Aside call) : (r.goOn thread call).Current := by
  refine Current.keep current (.inr rfl) rfl (fun other layout => ?_) fun due => ?_
  · refine fitted_goOn stands aside fun layout new => ?_
    rw [new] at after
    exact after
  · exact due.keep (fun other => written_goOn stands aside) id

theorem Current.tell (current : r.Current) : (r.tell overlay layout).Current :=
  ⟨current.lone, current.fitted, current.free⟩

/-- A thread that has written a setting will compute the layout. -/
theorem Current.write (current : r.Current) (idle : r.calls thread = none) {canvas : Canvas}
    (layout : canvas.layout = r.canvas.layout) :
    ({ r with canvas }.goOn thread (some .written)).Current := by
  have due : ({ r with canvas }.goOn thread (some .written)).Due :=
    .inl ⟨thread, by rw [calls_goOn, if_pos rfl]⟩
  refine current.keep (.inl due) layout (fun other layout => ?_) fun _ => due
  exact fitted_goOn (r := { r with canvas }) idle trivial (by simp)

theorem Current.fit (free : r.Free) (computed : r.canvas.settings.layout = .ok layout) :
    ({ r with
      canvas := { r.canvas with frame := r.canvas.frame.resize layout }
      stale := false }.goOn thread (some (.fitted layout))).Current := by
  have only {other : Nat} {layout' : ScreenLayout}
      (stands : (if other = thread then some (.fitted layout) else r.calls other) =
        some (.fitted layout')) : other = thread ∧ layout = layout' := by
    split at stands
    · cases stands
      exact ⟨‹_›, rfl⟩
    · exact absurd stands (free other layout')
  constructor
  · intro one two layout₁ layout₂ first second
    rw [calls_goOn] at first second
    exact (only first).1.trans (only second).1.symm
  · intro other layout' stands
    rw [calls_goOn] at stands
    obtain ⟨-, rfl⟩ := only stands
    exact .inr computed
  · intro none
    refine absurd ?_ (none thread layout)
    rw [calls_goOn, if_pos rfl]

theorem Current.publish (current : r.Current) (fitted : r.calls thread = some (.fitted layout)) :
    ({ r with canvas := { r.canvas with layout } }.goOn thread
      (some (.published layout))).Current := by
  have free (other : Nat) (layout' : ScreenLayout) :
      (if other = thread then some (.published layout) else r.calls other) ≠
        some (.fitted layout') := by
    split
    · simp
    · rename_i differ
      exact fun stands => differ (current.lone stands fitted)
  constructor
  · intro one two layout₁ layout₂ first
    rw [calls_goOn] at first
    exact absurd first (free _ _)
  · intro other layout' stands
    rw [calls_goOn] at stands
    exact absurd stands (free _ _)
  · intro _
    refine (current.fitted fitted).imp_left fun due => due.keep (fun other waits => ?_) id
    rw [calls_goOn, if_neg]
    · exact waits
    · rintro rfl
      rw [fitted] at waits
      cases waits

theorem Step.current (step : r.Step r') (current : r.Current) : r'.Current := by
  cases step with
  | setFullscreen thread fullscreen idle new => exact current.write idle rfl
  | setDisplaySize thread width height idle => exact current.write idle rfl
  | fit written free computed => exact .fit free computed
  | @fault thread fault written free computed =>
    have due : ({ r with stale := true }.goOn thread none).Due := .inr rfl
    refine current.keep (.inl due) rfl (fun other layout => ?_) fun _ => due
    rw [calls_goOn]
    split
    · rename_i same
      subst same
      simp [written]
    · exact Iff.rfl
  | publish fitted => exact current.publish fitted
  | look published =>
    apply current.goOn published trivial
    cases r.overlay <;> trivial
  | tell telling => exact current.tell.goOn telling trivial trivial
  | measure overlay idle => exact current.goOn idle trivial trivial
  | announce measured => exact current.tell.goOn measured trivial trivial
  | @install thread overlay announced =>
    have goes : (r.goOn thread none).Current := current.goOn announced trivial trivial
    exact ⟨goes.lone, goes.fitted, goes.free⟩
  | remove => exact ⟨current.lone, current.fitted, current.free⟩
  | @defer canvas layout =>
    have due : Due { r with canvas, stale := true } := .inr rfl
    exact current.keep (.inl due) layout (fun _ _ => Iff.rfl) fun _ => due
  | @other canvas layout sizing =>
    have same : canvas.settings.layout = r.canvas.settings.layout := by
      unfold Settings.layout
      rw [sizing]
    exact current.keep (.inr same) layout (fun _ _ => Iff.rfl) fun due => due

theorem Leads.current (leads : r.Leads r') (current : r.Current) : r'.Current := by
  induction leads with
  | refl => exact current
  | tail _ step ih => exact step.current ih

theorem current_create {config : Config} {kind : DisplayKind} {width height : Int} {now : Nat}
    {canvas : Canvas} (created : Canvas.create config kind width height now = .ok canvas) :
    Current { canvas } := by
  obtain ⟨layout, computed, created⟩ := Checked.bind_eq_ok.mp created
  cases created
  constructor
  · nofun
  · nofun
  · exact fun _ => .inr computed

theorem Free.goOn (free : r.Free) (after : ∀ layout, call ≠ some (.fitted layout)) :
    (r.goOn thread call).Free := by
  intro other layout
  rw [calls_goOn]
  split
  · exact after layout
  · exact free other layout

/-- What a thread does with the images in hand: it fits them, and then publishes the layout. -/
theorem steps_updateSize {changed : Bool} {canvas : Canvas}
    (written : r.calls thread = some .written) (free : r.Free)
    (updated : r.canvas.updateSize = .ok (changed, canvas)) :
    ∃ fitted : Resizing, r.Step fitted ∧ fitted.calls thread = some (.fitted canvas.layout) ∧
      fitted.Step
        ({ r with canvas, stale := false }.goOn thread (some (.published canvas.layout))) := by
  obtain ⟨layout, computed, updated⟩ := Checked.bind_eq_ok.mp updated
  cases updated
  have fitted : ({ r with
      canvas := { r.canvas with frame := r.canvas.frame.resize layout }
      stale := false }.goOn thread (some (.fitted layout))).calls thread =
        some (.fitted layout) := by
    rw [calls_goOn, if_pos rfl]
  have publishes := Step.publish fitted
  refine ⟨_, .fit written free computed, fitted, ?_⟩
  simpa only [Resizing.goOn, Function.update_idem] using publishes

theorem leads_updateSize {changed : Bool} {canvas : Canvas}
    (written : r.calls thread = some .written) (free : r.Free)
    (updated : r.canvas.updateSize = .ok (changed, canvas)) :
    r.Leads ({ r with canvas, stale := false }.goOn thread (some (.published canvas.layout))) := by
  obtain ⟨fitted, fits, -, publishes⟩ := steps_updateSize written free updated
  exact .tail (.single fits) publishes

/-- Where the settings have a layout, the two steps of the thread are those of the program. -/
theorem steps_program {s : Session Stage} (outside : s.painting = false)
    (same : r.canvas = s.stage.canvas) (written : r.calls thread = some .written) (free : r.Free)
    {layout : ScreenLayout} (computed : r.canvas.settings.layout = .ok layout) :
    ∃ fitted : Resizing, r.Step fitted ∧ fitted.calls thread = some (.fitted layout) ∧
      fitted.Step ({ r with
        canvas := (Stage.updateSize.run.run s).2.stage.canvas
        stale := false }.goOn thread (some (.published layout))) := by
  obtain ⟨⟨changed, canvas⟩, updated⟩ := Canvas.exists_updateSize_iff.mpr ⟨layout, computed⟩
  have published := (Canvas.updateSize_eq_ok updated).2.1
  cases computed.symm.trans published
  obtain ⟨notes, ran⟩ := Stage.run_updateSize outside (same ▸ updated)
  rw [ran]
  exact steps_updateSize written free updated

/-- Where they have none, the call of the thread ends, and the program leaves the canvas as it is. -/
theorem step_program {s : Session Stage} (outside : s.painting = false)
    (same : r.canvas = s.stage.canvas) (written : r.calls thread = some .written) (free : r.Free)
    {fault : Fault} (computed : r.canvas.settings.layout = .error fault) :
    (Stage.updateSize.run.run s).2.stage.canvas = r.canvas ∧
      r.Step ({ r with stale := true }.goOn thread none) := by
  have failed : s.stage.canvas.updateSize = .error fault := by
    rw [Canvas.updateSize, ← same, computed]
    rfl
  rw [Stage.run_updateSize_error outside failed]
  exact ⟨same.symm, .fault written free computed⟩

/-- However many threads change full screen mode and the size of the display, in whatever order they
come to it: once each that wrote a setting has published a layout, the canvas has the layout of its
settings, unless some of these were meant for a later layout only, or allowed of none. What a thread
does in its second step is what the program does when it computes the layout: it fits the images and
publishes the layout of all settings, or its call ends where they have none. -/
theorem layout_current {config : Config} {kind : DisplayKind} {width height : Int} {now : Nat}
    {canvas : Canvas} (created : Canvas.create config kind width height now = .ok canvas) :
    (∀ r, Leads { canvas } r → (∀ thread, Stride.Aside (r.calls thread)) → r.stale = false →
      r.canvas.settings.layout = .ok r.canvas.layout) ∧
    ∀ (s : Session Stage) (r : Resizing) (thread : Nat), s.painting = false →
      r.canvas = s.stage.canvas → r.calls thread = some .written → r.Free →
      (∀ layout, r.canvas.settings.layout = .ok layout →
        ∃ fitted : Resizing, r.Step fitted ∧ fitted.calls thread = some (.fitted layout) ∧
          fitted.Step ({ r with
            canvas := (Stage.updateSize.run.run s).2.stage.canvas
            stale := false }.goOn thread (some (.published layout)))) ∧
      ∀ fault, r.canvas.settings.layout = .error fault →
        (Stage.updateSize.run.run s).2.stage.canvas = r.canvas ∧
        r.Step ({ r with stale := true }.goOn thread none) := by
  refine ⟨fun r leads aside fresh => ?_, fun s r thread outside same written free =>
    ⟨fun layout computed => ?_, fun fault computed => ?_⟩⟩
  · have current := leads.current (current_create created)
    have free : r.Free := by
      intro thread layout fitted
      have stands := aside thread
      rw [fitted] at stands
      exact stands
    refine (current.free free).resolve_left fun due => ?_
    cases due with
    | inl waits =>
      obtain ⟨thread, waits⟩ := waits
      have stands := aside thread
      rw [waits] at stands
      exact stands
    | inr stale => simp [fresh] at stale
  · exact steps_program outside same written free computed
  · exact step_program outside same written free computed

/-- One thread leaves full screen mode while another has a larger display. -/
def crossed : Resizing :=
  { ({ canvas := pixelCanvas.setFullscreen false } : Resizing).goOn 0 (some .written) with
    canvas := (pixelCanvas.setFullscreen false).setDisplaySize 3 2 }.goOn 1 (some .written)

theorem leads_crossed : Leads { canvas := pixelCanvas } crossed := by
  have begins : Leads { canvas := pixelCanvas } _ :=
    .single (.setFullscreen 0 false rfl (by decide))
  exact begins.tail (.setDisplaySize 1 3 2 rfl)

theorem free_crossed : crossed.Free := by
  have begins : Free { canvas := pixelCanvas } := by nofun
  have first : (Resizing.goOn { canvas := pixelCanvas } 0 (some .written)).Free :=
    begins.goOn (by simp)
  exact Free.goOn (r := { Resizing.goOn _ 0 (some .written) with canvas := _ }) first (by simp)

theorem crossed_computes : ∃ changed canvas,
    crossed.canvas.updateSize = .ok (changed, canvas) ∧ canvas.layout.displaySize = ⟨3, 2⟩ :=
  ⟨_, _, rfl, rfl⟩

/-- The first of the two to compute a layout has the settings of both. -/
theorem layout_current_crossed :
    (∃ r, Leads { canvas := pixelCanvas } r ∧ r.canvas.layout.displaySize = ⟨3, 2⟩ ∧
      r.canvas.settings.layout = .ok r.canvas.layout) ∧
    ∃ fitted r : Resizing, crossed.Step fitted ∧ fitted.Step r ∧ Stride.Aside (r.calls 0) ∧
      r.canvas.layout.displaySize = ⟨3, 2⟩ := by
  have current := layout_current create_pixelCanvas
  constructor
  · obtain ⟨changed, canvas, updated, size⟩ := crossed_computes
    have waits : crossed.calls 0 = some .written := rfl
    have first := leads_updateSize waits free_crossed updated
    have computed := Canvas.updateSize_eq_ok updated
    obtain ⟨⟨same, canvas'⟩, again⟩ :=
      Canvas.exists_updateSize_iff.mpr ⟨canvas.layout, computed.1 ▸ computed.2.1⟩
    have free : ({ crossed with canvas, stale := false }.goOn 0
        (some (.published canvas.layout))).Free :=
      Free.goOn (r := { crossed with canvas, stale := false }) free_crossed (by simp)
    have waits' : ({ crossed with canvas, stale := false }.goOn 0
        (some (.published canvas.layout))).calls 1 = some .written := rfl
    have second := first.trans (leads_updateSize waits' free again)
    have size : canvas'.layout.displaySize = ⟨3, 2⟩ := by
      rw [Settings.displaySize_layout (Canvas.updateSize_eq_ok again).2.1, computed.1]
      rfl
    refine ⟨_, leads_crossed.trans second, size, ?_⟩
    refine current.1 _ (leads_crossed.trans second) (fun thread => ?_) rfl
    match thread with
    | 0 => trivial
    | 1 => trivial
    | thread + 2 => trivial
  · let s : Session Stage := { stage := {
      canvas := crossed.canvas, app := .scripted, backBuffer := .blank 1 1 } }
    obtain ⟨changed, canvas, updated, size⟩ := crossed_computes
    have computed := (Canvas.updateSize_eq_ok updated).2.1
    obtain ⟨publishes, -⟩ := current.2 s crossed 0 rfl rfl rfl free_crossed
    obtain ⟨fitted, fits, -, published⟩ := publishes _ computed
    obtain ⟨notes, ran⟩ := Stage.run_updateSize (s := s) rfl updated
    rw [ran] at published
    exact ⟨fitted, _, fits, published, trivial, size⟩

end Resizing

end Handset
