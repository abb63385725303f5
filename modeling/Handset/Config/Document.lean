import Handset.Config
import Handset.Json.Reader

/-! Configurations written as JSON. A section may leave out fields, which then keep their defaults,
and may hold fields of other names, which count for nothing. -/

namespace Handset

namespace Json

/-- The fields that a structure of the given field names is written with: as an object, in any
order and each at most once, or as an array of the first of them. -/
def fields? (names : List String) : Json → Option (List (String × Json))
  | .array items => if items.length ≤ names.length then some (names.zip items) else none
  | .object members => do
    let keyed ← members.mapM fun (key, value) => key.map (·, value)
    let known := keyed.filter fun (key, _) => names.contains key
    if (known.map (·.1)).Nodup then some known else none
  | _ => none

/-- The field `name`, or its default where it is left out. -/
def field {α : Type} (fields : List (String × Json)) (name : String) (read : Json → Option α)
    (default : α) : Option α :=
  match fields.lookup name with
  | some value => read value
  | none => some default

def toBool? : Json → Option Bool
  | .bool b => some b
  | _ => none

def toInt? : Json → Option Int
  | .number n => n.toInt?
  | _ => none

def toInt32? (j : Json) : Option Int :=
  j.toInt?.filter fun n => leastInt ≤ n && n ≤ greatestInt

def toWord32? (j : Json) : Option Nat :=
  (j.toInt?.filter fun n => 0 ≤ n && n ≤ 4294967295).map (·.toNat)

def toSingle? : Json → Option Single
  | .number n => n.toSingle?
  | _ => none

def toList? {α : Type} (read : Json → Option α) : Json → Option (List α)
  | .array items => items.mapM read
  | _ => none

end Json

def KeyLayout.ofName? : String → Option KeyLayout
  | "default" => some .standard
  | "siemens" => some .siemens
  | "motorola" => some .motorola
  | _ => none

/-- A layout is its name, or an object that gives its name the value null. -/
def KeyLayout.ofJson? : Json → Option KeyLayout
  | .text (some name) => ofName? name
  | .object [(some name, .null)] => ofName? name
  | _ => none

def KeyBinding.ofJson? (j : Json) : Option KeyBinding := do
  let fields ← j.fields? ["host", "handset"]
  let host ← fields.lookup "host"
  let handset ← fields.lookup "handset"
  return ⟨← host.toInt32?, ← handset.toInt32?⟩

def Keyboard.ofJson? (j : Json) : Option Keyboard := do
  let fields ← j.fields? ["rows", "key_width_ratio", "key_height_ratio"]
  let d : Keyboard := {}
  return {
    rows := ← Json.field fields "rows" Json.toWord32? d.rows
    keyWidthRatio := ← Json.field fields "key_width_ratio" Json.toSingle? d.keyWidthRatio
    keyHeightRatio := ← Json.field fields "key_height_ratio" Json.toSingle? d.keyHeightRatio }

namespace Config

def Display.ofJson? (j : Json) : Option Display := do
  let fields ← j.fields?
    ["virtual_width", "virtual_height", "force_fullscreen", "background_color", "show_fps"]
  let d : Display := {}
  return {
    virtualWidth := ← Json.field fields "virtual_width" Json.toInt32? d.virtualWidth
    virtualHeight := ← Json.field fields "virtual_height" Json.toInt32? d.virtualHeight
    forceFullscreen := ← Json.field fields "force_fullscreen" Json.toBool? d.forceFullscreen
    backgroundColor := ← Json.field fields "background_color"
      (fun j => j.toWord32?.map UInt32.ofNat) d.backgroundColor
    showFps := ← Json.field fields "show_fps" Json.toBool? d.showFps }

def Scaling.ofJson? (j : Json) : Option Scaling := do
  let fields ← j.fields? ["scale_to_fit", "keep_aspect_ratio", "scale_ratio", "filter"]
  let d : Scaling := {}
  return {
    scaleToFit := ← Json.field fields "scale_to_fit" Json.toBool? d.scaleToFit
    keepAspectRatio := ← Json.field fields "keep_aspect_ratio" Json.toBool? d.keepAspectRatio
    scaleRatio := ← Json.field fields "scale_ratio" Json.toInt32? d.scaleRatio
    filter := ← Json.field fields "filter" Json.toBool? d.filter }

def Performance.ofJson? (j : Json) : Option Performance := do
  let fields ← j.fields? ["fps_limit", "hardware_acceleration", "parallel_redraw"]
  let d : Performance := {}
  return {
    fpsLimit := ← Json.field fields "fps_limit" Json.toWord32? d.fpsLimit
    hardwareAcceleration :=
      ← Json.field fields "hardware_acceleration" Json.toBool? d.hardwareAcceleration
    parallelRedraw := ← Json.field fields "parallel_redraw" Json.toBool? d.parallelRedraw }

def Input.ofJson? (j : Json) : Option Input := do
  let fields ← j.fields? ["layout", "touch_input", "key_bindings"]
  let d : Input := {}
  return {
    layout := ← Json.field fields "layout" KeyLayout.ofJson? d.layout
    touchInput := ← Json.field fields "touch_input" Json.toBool? d.touchInput
    keyBindings := ← Json.field fields "key_bindings" (Json.toList? KeyBinding.ofJson?)
      d.keyBindings }

/-- Only the keyboard may be null: a host need not show one. -/
def keyboardOfJson? : Json → Option (Option Keyboard)
  | .null => some none
  | j => (Keyboard.ofJson? j).map some

def ofJson? (j : Json) : Option Config := do
  let fields ← j.fields? ["display", "scaling", "performance", "input", "keyboard"]
  return {
    display := ← Json.field fields "display" Display.ofJson? {}
    scaling := ← Json.field fields "scaling" Scaling.ofJson? {}
    performance := ← Json.field fields "performance" Performance.ofJson? {}
    input := ← Json.field fields "input" Input.ofJson? {}
    keyboard := ← Json.field fields "keyboard" keyboardOfJson? none }

/-- Why a text holds no configuration. -/
inductive DocumentError
  | malformed
  | invalid (cause : Error)
  deriving DecidableEq, Repr

def DocumentError.message : DocumentError → String
  | .malformed => "Failed to parse configuration JSON"
  | .invalid cause => cause.message

def ofText (text : String) : Except DocumentError Config :=
  match Json.ofText? text.toList >>= ofJson? with
  | none => .error .malformed
  | some config =>
    match config.validate with
    | .ok () => .ok config
    | .error cause => .error (.invalid cause)

/-- Why a file gives no configuration. -/
inductive FileError
  | unreadable (name : String)
  | rejected (name : String) (cause : DocumentError)
  deriving DecidableEq, Repr

def FileError.message : FileError → String
  | .unreadable name => s!"Failed to read configuration file {name}"
  | .rejected name _ => s!"Invalid configuration in {name}"

/-- The messages from the outermost down to the cause. -/
def FileError.chain : FileError → List String
  | .unreadable name => [(unreadable name).message]
  | .rejected name cause => [(rejected name cause).message, cause.message]

/-- The text under which a program refuses to start. -/
def FileError.report (error : FileError) : String :=
  "\n".intercalate ("Error: Failed to load configuration" :: error.chain)

/-- The configuration in a file, given what the file holds if there is one. A file that is not
text cannot be read. -/
def ofFile (name : String) (contents : Option ByteArray) : Except FileError Config :=
  match contents >>= String.fromUTF8? with
  | none => .error (.unreadable name)
  | some text =>
    match ofText text with
    | .ok config => .ok config
    | .error cause => .error (.rejected name cause)

end Config

end Handset
