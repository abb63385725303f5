import Handset.Json.Number

/-! JSON documents as trees. Members keep their order and may repeat a key. -/

namespace Handset

/-- A text in a document; `none` when it holds half of a surrogate pair, which is no character. -/
abbrev Json.Text := Option String

inductive Json
  | null
  | bool (value : Bool)
  | number (value : Json.Number)
  | text (value : Json.Text)
  | array (items : List Json)
  | object (members : List (Json.Text × Json))

end Handset
