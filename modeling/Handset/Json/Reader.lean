import Handset.Json

/-! Reading JSON. The grammar is the strict one: no trailing commas, comments, leading zeros or raw
control characters, and nothing but blanks after the document. Each step takes a text and gives
what it read with the rest of the text. -/

namespace Handset.Json

def isBlank (c : Char) : Bool :=
  c == ' ' || c == '\n' || c == '\t' || c == '\r'

def skipBlanks (s : List Char) : List Char :=
  s.dropWhile isBlank

def digit? (c : Char) : Option Nat :=
  if c.isDigit then some (c.toNat - '0'.toNat) else none

def digits (s : List Char) : List Nat × List Char :=
  ((s.takeWhile Char.isDigit).filterMap digit?, s.dropWhile Char.isDigit)

def digits? (s : List Char) : Option (List Nat × List Char) :=
  match digits s with
  | ([], _) => none
  | found => some found

/-- Digits without a leading zero, unless zero is all there is. -/
def whole? : List Char → Option (List Nat × List Char)
  | '0' :: rest => some ([0], rest)
  | s => digits? s

def fraction? : List Char → Option (Option (List Nat) × List Char)
  | '.' :: rest => (digits? rest).map fun (ds, rest) => (some ds, rest)
  | s => some (none, s)

def exponent? : List Char → Option (Option (Bool × List Nat) × List Char)
  | c :: rest =>
    if c = 'e' ∨ c = 'E' then
      let (down, rest) := match rest with
        | '+' :: r => (false, r)
        | '-' :: r => (true, r)
        | r => (false, r)
      (digits? rest).map fun (ds, rest) => (some (down, ds), rest)
    else some (none, c :: rest)
  | [] => some (none, [])

def number? (s : List Char) : Option (Number × List Char) := do
  let (negative, s) := match s with
    | '-' :: r => (true, r)
    | r => (false, r)
  let (whole, s) ← whole? s
  let (fraction, s) ← fraction? s
  let (exponent, s) ← exponent? s
  return (⟨negative, whole, fraction, exponent⟩, s)

def hexDigit? (c : Char) : Option Nat :=
  if c.isDigit then some (c.toNat - '0'.toNat)
  else if 'a' ≤ c ∧ c ≤ 'f' then some (c.toNat - 'a'.toNat + 10)
  else if 'A' ≤ c ∧ c ≤ 'F' then some (c.toNat - 'A'.toNat + 10)
  else none

/-- A piece of a text: a character, or a 16-bit unit written by its digits. -/
inductive Piece
  | char (c : Char)
  | unit (n : Nat)
  deriving DecidableEq, Repr

/-- The pieces up to the closing quote. -/
def pieces? : List Char → Option (List Piece × List Char)
  | '"' :: rest => some ([], rest)
  | '\\' :: 'u' :: a :: b :: c :: d :: rest => do
    let unit := (((← hexDigit? a) * 16 + (← hexDigit? b)) * 16 + (← hexDigit? c)) * 16
      + (← hexDigit? d)
    let (more, rest) ← pieces? rest
    return (.unit unit :: more, rest)
  | '\\' :: c :: rest => do
    let escaped ← match c with
      | '"' => some '"'
      | '\\' => some '\\'
      | '/' => some '/'
      | 'b' => some '\x08'
      | 'f' => some '\x0c'
      | 'n' => some '\n'
      | 'r' => some '\r'
      | 't' => some '\t'
      | _ => none
    let (more, rest) ← pieces? rest
    return (.char escaped :: more, rest)
  | c :: rest =>
    if c.toNat < 32 ∨ c = '\\' then none
    else do
      let (more, rest) ← pieces? rest
      return (.char c :: more, rest)
  | [] => none

def isHighSurrogate (n : Nat) : Bool :=
  0xd800 ≤ n && n < 0xdc00

def isLowSurrogate (n : Nat) : Bool :=
  0xdc00 ≤ n && n < 0xe000

/-- The characters of the pieces, a surrogate pair making one. -/
def characters? : List Piece → Option (List Char)
  | [] => some []
  | .char c :: rest => (characters? rest).map (c :: ·)
  | .unit high :: .unit low :: rest =>
    if isHighSurrogate high ∧ isLowSurrogate low then
      (characters? rest).map (Char.ofNat (0x10000 + (high - 0xd800) * 1024 + (low - 0xdc00)) :: ·)
    else if isHighSurrogate high ∨ isLowSurrogate high then none
    else (characters? (.unit low :: rest)).map (Char.ofNat high :: ·)
  | .unit n :: rest =>
    if isHighSurrogate n ∨ isLowSurrogate n then none
    else (characters? rest).map (Char.ofNat n :: ·)

/-- The text after an opening quote. -/
def text? (s : List Char) : Option (Text × List Char) := do
  let (pieces, rest) ← pieces? s
  return ((characters? pieces).map String.ofList, rest)

mutual

def value? : Nat → List Char → Option (Json × List Char)
  | 0, _ => none
  | depth + 1, s =>
    match skipBlanks s with
    | 'n' :: 'u' :: 'l' :: 'l' :: rest => some (.null, rest)
    | 't' :: 'r' :: 'u' :: 'e' :: rest => some (.bool true, rest)
    | 'f' :: 'a' :: 'l' :: 's' :: 'e' :: rest => some (.bool false, rest)
    | '"' :: rest => (text? rest).map fun (t, rest) => (.text t, rest)
    | '[' :: rest =>
      match skipBlanks rest with
      | ']' :: rest => some (.array [], rest)
      | rest => (items? depth rest).map fun (items, rest) => (.array items, rest)
    | '{' :: rest =>
      match skipBlanks rest with
      | '}' :: rest => some (.object [], rest)
      | rest => (members? depth rest).map fun (members, rest) => (.object members, rest)
    | rest => (number? rest).map fun (n, rest) => (.number n, rest)

/-- The items of an array, the first of them at hand. -/
def items? : Nat → List Char → Option (List Json × List Char)
  | 0, _ => none
  | depth + 1, s => do
    let (item, rest) ← value? depth s
    match skipBlanks rest with
    | ',' :: rest =>
      let (more, rest) ← items? depth rest
      return (item :: more, rest)
    | ']' :: rest => return ([item], rest)
    | _ => none

/-- The members of an object, the first of them at hand. -/
def members? : Nat → List Char → Option (List (Text × Json) × List Char)
  | 0, _ => none
  | depth + 1, s =>
    match skipBlanks s with
    | '"' :: rest => do
      let (key, rest) ← text? rest
      match skipBlanks rest with
      | ':' :: rest =>
        let (value, rest) ← value? depth rest
        match skipBlanks rest with
        | ',' :: rest =>
          let (more, rest) ← members? depth rest
          return ((key, value) :: more, rest)
        | '}' :: rest => return ([(key, value)], rest)
        | _ => none
      | _ => none
    | _ => none

end

/-- The document that a text holds. Each two levels of reading take a character, so that the text
itself bounds them. -/
def ofText? (s : List Char) : Option Json :=
  match value? (2 * s.length + 1) s with
  | some (document, rest) => if skipBlanks rest = [] then some document else none
  | none => none

end Handset.Json
