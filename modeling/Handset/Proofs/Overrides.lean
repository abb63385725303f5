import Handset.Proofs.Fields
import Handset.Proofs.Spelling

/-! Configurations that give some of their fields. The reader takes what is given and leaves the
rest as it is by default, field by field, in whichever form the whole and its sections come. -/

namespace Handset

open Json (Slot)

/-! ### Keys -/

def KeyLayout.documentName : KeyLayout → String
  | .standard => "default"
  | .siemens => "siemens"
  | .motorola => "motorola"

def KeyLayout.Written (layout : KeyLayout) (j : Json) : Prop :=
  j = .text (some layout.documentName) ∨ j = .object [(some layout.documentName, .null)]

theorem KeyLayout.read (layout : KeyLayout) (j : Json) (h : layout.Written j) :
    ofJson? j = some layout := by
  rcases h with rfl | rfl <;> cases layout <;> rfl

def KeyBinding.slots (binding : KeyBinding) : List Slot := [
  .of "host" Json.WritesInt32 (some binding.host),
  .of "handset" Json.WritesInt32 (some binding.handset)]

/-- Both keys of a binding have to be given. -/
def KeyBinding.Written (binding : KeyBinding) : Json → Prop :=
  Json.Holds binding.slots

theorem KeyBinding.read (binding : KeyBinding) (j : Json) (h : binding.Written j) :
    ofJson? j = some binding := by
  obtain ⟨fields, read, distinct, found⟩ := Json.Holds.read h (by simp [slots, Slot.of])
  simp only [slots, List.forall_mem_cons] at found
  obtain ⟨host, handset, -⟩ := found
  obtain ⟨hostValue, hostFound, hostWritten⟩ := host.lookup distinct
  obtain ⟨handsetValue, handsetFound, handsetWritten⟩ := handset.lookup distinct
  change j.fields? ["host", "handset"] = _ at read
  simp [ofJson?, read, hostFound, handsetFound, Json.WritesInt32.read _ _ hostWritten,
    Json.WritesInt32.read _ _ handsetWritten]

/-! ### Sections -/

/-- Some fields of a keyboard. -/
structure Keyboard.Given where
  rows : Option Nat := none
  keyWidthRatio : Option Single := none
  keyHeightRatio : Option Single := none

namespace Keyboard.Given

def override (given : Given) (keyboard : Keyboard) : Keyboard where
  rows := given.rows.getD keyboard.rows
  keyWidthRatio := given.keyWidthRatio.getD keyboard.keyWidthRatio
  keyHeightRatio := given.keyHeightRatio.getD keyboard.keyHeightRatio

def slots (given : Given) : List Slot := [
  .of "rows" Json.WritesWord32 given.rows,
  .of "key_width_ratio" Json.WritesSingle given.keyWidthRatio,
  .of "key_height_ratio" Json.WritesSingle given.keyHeightRatio]

def Written (given : Given) : Json → Prop :=
  Json.Holds given.slots

theorem read (given : Given) (j : Json) (h : given.Written j) :
    Keyboard.ofJson? j = some (given.override {}) := by
  obtain ⟨fields, read, distinct, found⟩ := Json.Holds.read h (by simp [slots, Slot.of])
  simp only [slots, List.forall_mem_cons] at found
  obtain ⟨rows, width, height, -⟩ := found
  change j.fields? ["rows", "key_width_ratio", "key_height_ratio"] = _ at read
  simp [Keyboard.ofJson?, read, override, rows.field_getD distinct Json.WritesWord32.read,
    width.field_getD distinct Json.WritesSingle.read,
    height.field_getD distinct Json.WritesSingle.read]

end Keyboard.Given

namespace Config

structure Display.Given where
  virtualWidth : Option Int := none
  virtualHeight : Option Int := none
  forceFullscreen : Option Bool := none
  backgroundColor : Option UInt32 := none
  showFps : Option Bool := none

namespace Display.Given

def override (given : Given) (display : Display) : Display where
  virtualWidth := given.virtualWidth.getD display.virtualWidth
  virtualHeight := given.virtualHeight.getD display.virtualHeight
  forceFullscreen := given.forceFullscreen.getD display.forceFullscreen
  backgroundColor := given.backgroundColor.getD display.backgroundColor
  showFps := given.showFps.getD display.showFps

def slots (given : Given) : List Slot := [
  .of "virtual_width" Json.WritesInt32 given.virtualWidth,
  .of "virtual_height" Json.WritesInt32 given.virtualHeight,
  .of "force_fullscreen" Json.WritesBool given.forceFullscreen,
  .of "background_color" Json.WritesColor given.backgroundColor,
  .of "show_fps" Json.WritesBool given.showFps]

def Written (given : Given) : Json → Prop :=
  Json.Holds given.slots

theorem read (given : Given) (j : Json) (h : given.Written j) :
    Display.ofJson? j = some (given.override {}) := by
  obtain ⟨fields, read, distinct, found⟩ := Json.Holds.read h (by simp [slots, Slot.of])
  simp only [slots, List.forall_mem_cons] at found
  obtain ⟨width, height, fullscreen, color, fps, -⟩ := found
  change j.fields?
    ["virtual_width", "virtual_height", "force_fullscreen", "background_color", "show_fps"] = _
    at read
  simp [Display.ofJson?, read, override, width.field_getD distinct Json.WritesInt32.read,
    height.field_getD distinct Json.WritesInt32.read,
    fullscreen.field_getD distinct Json.WritesBool.read,
    color.field_getD distinct Json.WritesColor.read,
    fps.field_getD distinct Json.WritesBool.read]

end Display.Given

structure Scaling.Given where
  scaleToFit : Option Bool := none
  keepAspectRatio : Option Bool := none
  scaleRatio : Option Int := none
  filter : Option Bool := none

namespace Scaling.Given

def override (given : Given) (scaling : Scaling) : Scaling where
  scaleToFit := given.scaleToFit.getD scaling.scaleToFit
  keepAspectRatio := given.keepAspectRatio.getD scaling.keepAspectRatio
  scaleRatio := given.scaleRatio.getD scaling.scaleRatio
  filter := given.filter.getD scaling.filter

def slots (given : Given) : List Slot := [
  .of "scale_to_fit" Json.WritesBool given.scaleToFit,
  .of "keep_aspect_ratio" Json.WritesBool given.keepAspectRatio,
  .of "scale_ratio" Json.WritesInt32 given.scaleRatio,
  .of "filter" Json.WritesBool given.filter]

def Written (given : Given) : Json → Prop :=
  Json.Holds given.slots

theorem read (given : Given) (j : Json) (h : given.Written j) :
    Scaling.ofJson? j = some (given.override {}) := by
  obtain ⟨fields, read, distinct, found⟩ := Json.Holds.read h (by simp [slots, Slot.of])
  simp only [slots, List.forall_mem_cons] at found
  obtain ⟨fit, keep, ratio, filter, -⟩ := found
  change j.fields? ["scale_to_fit", "keep_aspect_ratio", "scale_ratio", "filter"] = _ at read
  simp [Scaling.ofJson?, read, override, fit.field_getD distinct Json.WritesBool.read,
    keep.field_getD distinct Json.WritesBool.read, ratio.field_getD distinct Json.WritesInt32.read,
    filter.field_getD distinct Json.WritesBool.read]

end Scaling.Given

structure Performance.Given where
  fpsLimit : Option Nat := none
  hardwareAcceleration : Option Bool := none
  parallelRedraw : Option Bool := none

namespace Performance.Given

def override (given : Given) (performance : Performance) : Performance where
  fpsLimit := given.fpsLimit.getD performance.fpsLimit
  hardwareAcceleration := given.hardwareAcceleration.getD performance.hardwareAcceleration
  parallelRedraw := given.parallelRedraw.getD performance.parallelRedraw

def slots (given : Given) : List Slot := [
  .of "fps_limit" Json.WritesWord32 given.fpsLimit,
  .of "hardware_acceleration" Json.WritesBool given.hardwareAcceleration,
  .of "parallel_redraw" Json.WritesBool given.parallelRedraw]

def Written (given : Given) : Json → Prop :=
  Json.Holds given.slots

theorem read (given : Given) (j : Json) (h : given.Written j) :
    Performance.ofJson? j = some (given.override {}) := by
  obtain ⟨fields, read, distinct, found⟩ := Json.Holds.read h (by simp [slots, Slot.of])
  simp only [slots, List.forall_mem_cons] at found
  obtain ⟨limit, acceleration, parallel, -⟩ := found
  change j.fields? ["fps_limit", "hardware_acceleration", "parallel_redraw"] = _ at read
  simp [Performance.ofJson?, read, override, limit.field_getD distinct Json.WritesWord32.read,
    acceleration.field_getD distinct Json.WritesBool.read,
    parallel.field_getD distinct Json.WritesBool.read]

end Performance.Given

structure Input.Given where
  layout : Option KeyLayout := none
  touchInput : Option Bool := none
  keyBindings : Option (List KeyBinding) := none

namespace Input.Given

def override (given : Given) (input : Input) : Input where
  layout := given.layout.getD input.layout
  touchInput := given.touchInput.getD input.touchInput
  keyBindings := given.keyBindings.getD input.keyBindings

def slots (given : Given) : List Slot := [
  .of "layout" KeyLayout.Written given.layout,
  .of "touch_input" Json.WritesBool given.touchInput,
  .of "key_bindings" (Json.WritesList KeyBinding.Written) given.keyBindings]

def Written (given : Given) : Json → Prop :=
  Json.Holds given.slots

theorem read (given : Given) (j : Json) (h : given.Written j) :
    Input.ofJson? j = some (given.override {}) := by
  obtain ⟨fields, read, distinct, found⟩ := Json.Holds.read h (by simp [slots, Slot.of])
  simp only [slots, List.forall_mem_cons] at found
  obtain ⟨layout, touch, bindings, -⟩ := found
  change j.fields? ["layout", "touch_input", "key_bindings"] = _ at read
  simp [Input.ofJson?, read, override, layout.field_getD distinct KeyLayout.read,
    touch.field_getD distinct Json.WritesBool.read,
    bindings.field_getD distinct (Json.WritesList.read KeyBinding.read)]

end Input.Given

/-! ### The whole -/

/-- Some sections, of each of which some fields are given. A keyboard may also be given as none. -/
structure Given where
  display : Option Display.Given := none
  scaling : Option Scaling.Given := none
  performance : Option Performance.Given := none
  input : Option Input.Given := none
  keyboard : Option (Option Keyboard.Given) := none

namespace Given

/-- A keyboard that is given starts from the default one, since there may be none to start from. -/
def override (given : Given) (config : Config) : Config where
  display := given.display.elim config.display (·.override config.display)
  scaling := given.scaling.elim config.scaling (·.override config.scaling)
  performance := given.performance.elim config.performance (·.override config.performance)
  input := given.input.elim config.input (·.override config.input)
  keyboard := given.keyboard.elim config.keyboard (·.map (·.override {}))

def KeyboardWritten : Option Keyboard.Given → Json → Prop
  | none, j => j = .null
  | some given, j => given.Written j

def slots (given : Given) : List Slot := [
  .of "display" Display.Given.Written given.display,
  .of "scaling" Scaling.Given.Written given.scaling,
  .of "performance" Performance.Given.Written given.performance,
  .of "input" Input.Given.Written given.input,
  .of "keyboard" KeyboardWritten given.keyboard]

def Written (given : Given) : Json → Prop :=
  Json.Holds given.slots

theorem keyboard_read (given : Option Keyboard.Given) (j : Json) (h : KeyboardWritten given j) :
    keyboardOfJson? j = some (given.map (·.override {})) := by
  cases given with
  | none => cases h; rfl
  | some given =>
    have read := given.read j h
    cases h <;> simp [keyboardOfJson?, read]

theorem read (given : Given) (j : Json) (h : given.Written j) :
    Config.ofJson? j = some (given.override {}) := by
  obtain ⟨fields, read, distinct, found⟩ := Json.Holds.read h (by simp [slots, Slot.of])
  simp only [slots, List.forall_mem_cons] at found
  obtain ⟨display, scaling, performance, input, keyboard, -⟩ := found
  change j.fields? ["display", "scaling", "performance", "input", "keyboard"] = _ at read
  simp [Config.ofJson?, read, override, display.field distinct Display.Given.read,
    scaling.field distinct Scaling.Given.read, performance.field distinct Performance.Given.read,
    input.field distinct Input.Given.read, keyboard.field distinct keyboard_read]

/-- A text that spells the given fields, with blanks before and after it. -/
def Document (given : Given) (text : String) : Prop :=
  ∃ j, given.Written j ∧ Json.Spells (.spaced j) text.toList

/-- A document overrides the default configuration in the fields that it gives and in no others, in
whichever way it is written, and is rejected only if the outcome is invalid. -/
theorem document_overrides (given : Given) (text : String) (h : given.Document text) :
    ofText text =
      match (given.override {}).validate with
      | .ok () => .ok (given.override {})
      | .error cause => .error (.invalid cause) := by
  obtain ⟨j, written, spelled⟩ := h
  have document : (Json.ofText? text.toList >>= ofJson?) = some (given.override {}) := by
    rw [spelled.read_document]
    exact given.read j written
  cases outcome : (given.override {}).validate <;> simp [ofText, document, outcome]

theorem document_overrides_mixedForms :
    let text :=
      "\x7b\"x\":[\x7b\x7d],\"keyboard\":\x7b\"rows\":4\x7d,\"scaling\":[true,false,50]\x7d"
    let given : Given :=
      { scaling := some ⟨some true, some false, some 50, none⟩
        keyboard := some (some ⟨some 4, none, none⟩) }
    given.Document text ∧
      ofText text =
        .ok { scaling := ⟨true, false, 50, false⟩, keyboard := some { rows := 4 } } := by
  intro text given
  have four : Json.SpellsNumber ⟨false, [4], none, none⟩ ['4'] :=
    .mk ⟨by decide, by decide⟩ (by decide) .absent .absent
  have fifty : Json.SpellsNumber ⟨false, [5, 0], none, none⟩ ['5', '0'] :=
    .mk ⟨by decide, by decide⟩ (by decide) .absent .absent
  have x := Json.Spells.array (.item (.alone (.noMembers .nil)))
  have keyboard := Json.Spells.object (.member (.named "rows" (by simp) (.number four)))
  have scaling := Json.Spells.array
    (.items (.alone .yes) (.items (.alone .no) (.item (.alone (.number fifty)))))
  have spelled := Json.Spells.object
    (.members (.named "x" (by simp) x)
      (.members (.named "keyboard" (by simp) keyboard)
        (.member (.named "scaling" (by simp) scaling))))
  have rows : (⟨some 4, none, none⟩ : Keyboard.Given).Written
      (.object [(some "rows", .number ⟨false, [4], none, none⟩)]) :=
    @Json.Holds.object _ [("rows", _)] _
      (.given ⟨by decide, by decide, [4], rfl, rfl⟩ (.omitted (.omitted .nil))) (.refl _)
  have ratio : (⟨some true, some false, some 50, none⟩ : Scaling.Given).Written
      (.array [.bool true, .bool false, .number ⟨false, [5, 0], none, none⟩]) :=
    .array (.cons rfl (.cons rfl (.cons ⟨by decide, by decide, [5, 0], rfl, rfl⟩
      (.nil (by simp [Slot.of])))))
  have document : given.Document text := by
    refine ⟨_, @Json.Holds.object _
      [("x", .array [.object []]), ("keyboard", _), ("scaling", _)] _
      (.omitted (.given ratio (.omitted (.omitted (.given rows .nil))))) (.swap _ _ _), ?_⟩
    convert spelled.alone using 1
    · rfl
    · decide
  exact ⟨document, (document_overrides given text document).trans rfl⟩

end Given

end Config

end Handset
