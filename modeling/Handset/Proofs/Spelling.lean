import Handset.Json.Reader
import Mathlib.Data.List.DropRight
import Mathlib.Tactic.IntervalCases

/-! How documents are written. The grammar says what a stretch of text stands for: numbers of any
length, texts with every escape, blanks wherever they may be, arrays and objects of any depth. The
reader reads whatever the grammar spells. -/

namespace Handset.Json

def Blanks (s : List Char) : Prop :=
  ∀ c ∈ s, c ∈ [' ', '\n', '\t', '\r']

/-! ### Numbers -/

structure Decimals (ds : List Nat) : Prop where
  nonempty : ds ≠ []
  small : ∀ d ∈ ds, d < 10

def spellDigits (ds : List Nat) : List Char :=
  ds.map Nat.digitChar

inductive SpellsFraction : Option (List Nat) → List Char → Prop
  | absent : SpellsFraction none []
  | present {ds : List Nat} : Decimals ds → SpellsFraction (some ds) ('.' :: spellDigits ds)

inductive SpellsSign : Bool → List Char → Prop
  | absent : SpellsSign false []
  | plus : SpellsSign false ['+']
  | minus : SpellsSign true ['-']

inductive SpellsExponent : Option (Bool × List Nat) → List Char → Prop
  | absent : SpellsExponent none []
  | present {mark : Char} {down : Bool} {sign : List Char} {ds : List Nat} :
    mark ∈ ['e', 'E'] → SpellsSign down sign → Decimals ds →
    SpellsExponent (some (down, ds)) (mark :: (sign ++ spellDigits ds))

/-- A number has no zero in front, unless zero is all there is, and no plus sign. -/
inductive SpellsNumber : Number → List Char → Prop
  | mk {negative : Bool} {whole : List Nat} {fraction : Option (List Nat)}
    {exponent : Option (Bool × List Nat)} {f e : List Char} :
    Decimals whole → (whole.head? = some 0 → whole = [0]) →
    SpellsFraction fraction f → SpellsExponent exponent e →
    SpellsNumber ⟨negative, whole, fraction, exponent⟩
      ((if negative then ['-'] else []) ++ (spellDigits whole ++ (f ++ e)))

/-! ### Texts -/

/-- A hexadecimal digit, small or capital. -/
def Hex (n : Nat) (c : Char) : Prop :=
  n < 16 ∧ (c = n.digitChar ∨ c = n.digitChar.toUpper)

inductive SpellsUnit : Nat → List Char → Prop
  | mk {n₁ n₂ n₃ n₄ : Nat} {c₁ c₂ c₃ c₄ : Char} : Hex n₁ c₁ → Hex n₂ c₂ → Hex n₃ c₃ → Hex n₄ c₄ →
    SpellsUnit (((n₁ * 16 + n₂) * 16 + n₃) * 16 + n₄) ['\\', 'u', c₁, c₂, c₃, c₄]

/-- The characters with an escape of one letter. -/
def shortEscapes : List (Char × Char) :=
  [('"', '"'), ('\\', '\\'), ('/', '/'), ('b', '\x08'), ('f', '\x0c'), ('n', '\n'), ('r', '\r'),
    ('t', '\t')]

/-- A character past 16 bits takes the two halves of a pair. -/
inductive SpellsChar : Char → List Char → Prop
  | plain {c : Char} : 32 ≤ c.toNat → c ≠ '"' → c ≠ '\\' → SpellsChar c [c]
  | short {e c : Char} : (e, c) ∈ shortEscapes → SpellsChar c ['\\', e]
  | unit {n : Nat} {s : List Char} : SpellsUnit n s → n < 0xd800 ∨ 0xe000 ≤ n →
    SpellsChar (Char.ofNat n) s
  | pair {high low : Nat} {s t : List Char} : high < 1024 → low < 1024 →
    SpellsUnit (0xd800 + high) s → SpellsUnit (0xdc00 + low) t →
    SpellsChar (Char.ofNat (0x10000 + high * 1024 + low)) (s ++ t)

def StartsWithLowHalf (s : List Char) : Prop :=
  ∃ low t rest, low < 1024 ∧ SpellsUnit (0xdc00 + low) t ∧ s = t ++ rest

/-- The characters of a text, or `none` if it holds a half without the other. -/
inductive SpellsText : Option (List Char) → List Char → Prop
  | nil : SpellsText (some []) []
  | char {c : Char} {s rest : List Char} {t : Option (List Char)} :
    SpellsChar c s → SpellsText t rest → SpellsText (t.map (c :: ·)) (s ++ rest)
  | low {n : Nat} {s rest : List Char} {t : Option (List Char)} :
    n < 1024 → SpellsUnit (0xdc00 + n) s → SpellsText t rest → SpellsText none (s ++ rest)
  | high {n : Nat} {s rest : List Char} {t : Option (List Char)} :
    n < 1024 → SpellsUnit (0xd800 + n) s → ¬ StartsWithLowHalf rest → SpellsText t rest →
    SpellsText none (s ++ rest)

/-! ### Values -/

/-- What a stretch of a document can be: a value, alone or with blanks around, the items of an
array, a member of an object, or its members. Brackets are no part of items and members. -/
inductive Phrase
  | value (j : Json)
  | spaced (j : Json)
  | items (js : List Json)
  | member (m : Text × Json)
  | members (ms : List (Text × Json))

inductive Spells : Phrase → List Char → Prop
  | null : Spells (.value .null) ['n', 'u', 'l', 'l']
  | yes : Spells (.value (.bool true)) ['t', 'r', 'u', 'e']
  | no : Spells (.value (.bool false)) ['f', 'a', 'l', 's', 'e']
  | number {n : Number} {s : List Char} : SpellsNumber n s → Spells (.value (.number n)) s
  | text {t : Option (List Char)} {s : List Char} : SpellsText t s →
    Spells (.value (.text (t.map String.ofList))) ('"' :: (s ++ ['"']))
  | noItems {b : List Char} : Blanks b → Spells (.value (.array [])) ('[' :: (b ++ [']']))
  | array {js : List Json} {s : List Char} : Spells (.items js) s →
    Spells (.value (.array js)) ('[' :: (s ++ [']']))
  | noMembers {b : List Char} : Blanks b → Spells (.value (.object [])) ('{' :: (b ++ ['}']))
  | object {ms : List (Text × Json)} {s : List Char} : Spells (.members ms) s →
    Spells (.value (.object ms)) ('{' :: (s ++ ['}']))
  | spaced {j : Json} {b s b' : List Char} : Blanks b → Spells (.value j) s → Blanks b' →
    Spells (.spaced j) (b ++ (s ++ b'))
  | item {j : Json} {s : List Char} : Spells (.spaced j) s → Spells (.items [j]) s
  | items {j : Json} {js : List Json} {s t : List Char} : Spells (.spaced j) s →
    Spells (.items js) t → Spells (.items (j :: js)) (s ++ ',' :: t)
  | key {t : Option (List Char)} {j : Json} {b k b' s : List Char} : Blanks b → SpellsText t k →
    Blanks b' → Spells (.spaced j) s →
    Spells (.member (t.map String.ofList, j)) (b ++ '"' :: (k ++ '"' :: (b' ++ ':' :: s)))
  | member {m : Text × Json} {s : List Char} : Spells (.member m) s → Spells (.members [m]) s
  | members {m : Text × Json} {ms : List (Text × Json)} {s t : List Char} : Spells (.member m) s →
    Spells (.members ms) t → Spells (.members (m :: ms)) (s ++ ',' :: t)

theorem Blanks.nil : Blanks [] := by
  simp [Blanks]

theorem Spells.alone {j : Json} {s : List Char} (h : Spells (.value j) s) :
    Spells (.spaced j) s := by
  simpa using Spells.spaced .nil h .nil

/-- A text without escapes spells itself. -/
theorem SpellsText.plain {s : List Char} (h : ∀ c ∈ s, 32 ≤ c.toNat ∧ c ≠ '"' ∧ c ≠ '\\') :
    SpellsText (some s) s := by
  induction s with
  | nil => exact .nil
  | cons c s ih =>
    obtain ⟨printable, quote, backslash⟩ := h c (by simp)
    exact .char (.plain printable quote backslash) (ih fun d hd => h d (by simp [hd]))

theorem Spells.named (name : String) {j : Json} {s : List Char}
    (plain : ∀ c ∈ name.toList, 32 ≤ c.toNat ∧ c ≠ '"' ∧ c ≠ '\\') (h : Spells (.value j) s) :
    Spells (.member (some name, j)) ('"' :: (name.toList ++ '"' :: ':' :: s)) := by
  simpa using Spells.key .nil (.plain plain) .nil h.alone

/-! ### Blanks are read over -/

/-- What may come after a value. -/
def Ends (rest : List Char) : Prop :=
  ∀ c ∈ rest.head?, c ∈ [' ', '\n', '\t', '\r', ',', ']', '}']

theorem Blanks.skip {b : List Char} (h : Blanks b) (s : List Char) :
    skipBlanks (b ++ s) = skipBlanks s := by
  induction b with
  | nil => rfl
  | cons c b ih =>
    have blank : isBlank c = true := by
      have := h c (by simp)
      simpa [isBlank, or_assoc] using this
    simp only [skipBlanks, List.cons_append, List.dropWhile_cons, blank, if_true]
    exact ih fun d hd => h d (by simp [hd])

theorem Blanks.ends {b rest : List Char} (h : Blanks b) (ends : Ends rest) : Ends (b ++ rest) := by
  cases b with
  | nil => exact ends
  | cons c b =>
    have := h c (by simp)
    simp only [List.mem_cons, List.not_mem_nil, or_false] at this
    simp only [Ends, List.cons_append, List.head?_cons, Option.mem_some_iff, forall_eq',
      List.mem_cons, List.not_mem_nil, or_false]
    tauto

theorem skipBlanks_cons {c : Char} (h : isBlank c = false) (s : List Char) :
    skipBlanks (c :: s) = c :: s := by
  simp [skipBlanks, h]

theorem skipBlanks_skipBlanks (s : List Char) : skipBlanks (skipBlanks s) = skipBlanks s :=
  List.dropWhile_idempotent isBlank s

theorem value?_skipBlanks (fuel : Nat) (s : List Char) :
    value? fuel (skipBlanks s) = value? fuel s := by
  cases fuel <;> simp only [value?, skipBlanks_skipBlanks]

theorem value?_congr (fuel : Nat) {s t : List Char} (h : skipBlanks s = skipBlanks t) :
    value? fuel s = value? fuel t := by
  rw [← value?_skipBlanks, h, value?_skipBlanks]

theorem items?_skipBlanks (fuel : Nat) (s : List Char) :
    items? fuel (skipBlanks s) = items? fuel s := by
  cases fuel <;> simp only [items?, value?_skipBlanks]

theorem members?_skipBlanks (fuel : Nat) (s : List Char) :
    members? fuel (skipBlanks s) = members? fuel s := by
  cases fuel <;> simp only [members?, skipBlanks_skipBlanks]

/-! ### Numbers are read to their end -/

theorem digit?_digitChar {d : Nat} (h : d < 10) :
    d.digitChar.isDigit = true ∧ digit? d.digitChar = some d := by
  interval_cases d <;> decide

theorem Decimals.starts {ds : List Nat} (h : Decimals ds) :
    ∃ c s, spellDigits ds = c :: s ∧ c.isDigit = true := by
  obtain _ | ⟨d, ds⟩ := ds
  · exact absurd rfl h.nonempty
  · exact ⟨d.digitChar, spellDigits ds, rfl, (digit?_digitChar (h.small d (by simp))).1⟩

theorem digits_spellDigits {ds : List Nat} (small : ∀ d ∈ ds, d < 10) {s : List Char}
    (stop : ∀ c ∈ s.head?, c.isDigit = false) : digits (spellDigits ds ++ s) = (ds, s) := by
  induction ds with
  | nil =>
    cases s with
    | nil => rfl
    | cons c s => simp [digits, spellDigits, stop c (by simp)]
  | cons d ds ih =>
    obtain ⟨isDigit, read⟩ := digit?_digitChar (small d (by simp))
    have rest := ih fun e he => small e (by simp [he])
    simp only [digits, spellDigits, Prod.mk.injEq] at rest
    simp [digits, spellDigits, isDigit, read, rest]

theorem Decimals.read {ds : List Nat} (h : Decimals ds) {s : List Char}
    (stop : ∀ c ∈ s.head?, c.isDigit = false) : digits? (spellDigits ds ++ s) = some (ds, s) := by
  rw [digits?, digits_spellDigits h.small stop]
  obtain _ | ⟨d, ds⟩ := ds
  · exact absurd rfl h.nonempty
  · rfl

theorem Decimals.read_whole {ds : List Nat} (h : Decimals ds) (zero : ds.head? = some 0 → ds = [0])
    {s : List Char} (stop : ∀ c ∈ s.head?, c.isDigit = false) :
    whole? (spellDigits ds ++ s) = some (ds, s) := by
  obtain _ | ⟨d, ds⟩ := ds
  · exact absurd rfl h.nonempty
  · by_cases hd : d = 0
    · obtain rfl : ds = [] := by simpa [hd] using zero
      subst hd
      rfl
    · have ne : d.digitChar ≠ '0' := by
        have := h.small d (by simp)
        interval_cases d <;> first | contradiction | decide
      rw [← h.read stop]
      unfold whole?
      split
      · next heq =>
        simp only [spellDigits, List.map_cons, List.cons_append, List.cons.injEq] at heq
        exact absurd heq.1 ne
      · rfl

theorem SpellsFraction.read {f : Option (List Nat)} {s : List Char} (h : SpellsFraction f s)
    {rest : List Char} (stop : ∀ c ∈ rest.head?, c.isDigit = false ∧ c ≠ '.') :
    fraction? (s ++ rest) = some (f, rest) := by
  cases h with
  | absent =>
    unfold fraction?
    split
    · next heq => simp only [List.nil_append] at heq; subst heq; exact absurd rfl (stop '.' rfl).2
    · rfl
  | present decimals =>
    simp [fraction?, decimals.read fun c hc => (stop c hc).1]

theorem SpellsExponent.read {e : Option (Bool × List Nat)} {s : List Char}
    (h : SpellsExponent e s) {rest : List Char}
    (stop : ∀ c ∈ rest.head?, c.isDigit = false ∧ c ∉ ['e', 'E']) :
    exponent? (s ++ rest) = some (e, rest) := by
  cases h with
  | absent =>
    cases rest with
    | nil => rfl
    | cons c rest =>
      have := (stop c rfl).2
      simp only [List.mem_cons, List.not_mem_nil, or_false] at this
      simp [exponent?, this]
  | @present mark down sign ds marked signed decimals =>
    have read := decimals.read fun c hc => (stop c hc).1
    have marked : mark = 'e' ∨ mark = 'E' := by simpa using marked
    simp only [exponent?, List.cons_append, marked, if_true]
    cases signed with
    | plus => simp [read]
    | minus => simp [read]
    | absent =>
      -- a digit is neither of the signs
      obtain ⟨c, t, starts, isDigit⟩ := decimals.starts
      have plus : c ≠ '+' := by rintro rfl; exact absurd isDigit (by decide)
      have minus : c ≠ '-' := by rintro rfl; exact absurd isDigit (by decide)
      rw [starts, List.cons_append] at read
      simp [starts, plus, minus, read]

theorem Ends.stops {rest : List Char} (ends : Ends rest) :
    ∀ c ∈ rest.head?, c.isDigit = false ∧ c ≠ '.' ∧ c ∉ ['e', 'E'] := by
  have all : ∀ c ∈ [' ', '\n', '\t', '\r', ',', ']', '}'],
      c.isDigit = false ∧ c ≠ '.' ∧ c ∉ ['e', 'E'] := by simp [Char.isDigit]
  exact fun c hc => all c (ends c hc)

theorem SpellsExponent.stops {e : Option (Bool × List Nat)} {s rest : List Char}
    (h : SpellsExponent e s) (ends : Ends rest) :
    ∀ c ∈ (s ++ rest).head?, c.isDigit = false ∧ c ≠ '.' := by
  cases h with
  | absent => exact fun c hc => ⟨(ends.stops c hc).1, (ends.stops c hc).2.1⟩
  | @present mark _ _ _ marked _ _ =>
    have all : ∀ c ∈ ['e', 'E'], c.isDigit = false ∧ c ≠ '.' := by simp [Char.isDigit]
    simpa using all mark marked

theorem SpellsFraction.stops {f : Option (List Nat)} {s rest : List Char} (h : SpellsFraction f s)
    (stop : ∀ c ∈ rest.head?, c.isDigit = false) : ∀ c ∈ (s ++ rest).head?, c.isDigit = false := by
  cases h with
  | absent => exact stop
  | present => simp

theorem SpellsNumber.read {n : Number} {s rest : List Char} (h : SpellsNumber n s)
    (ends : Ends rest) : number? (s ++ rest) = some (n, rest) := by
  obtain @⟨negative, whole, fraction, exponent, f, e, decimals, zero, fractional, exponential⟩ := h
  have afterFraction := exponential.stops ends
  have afterWhole := fractional.stops fun c hc => (afterFraction c hc).1
  have readWhole := decimals.read_whole zero afterWhole
  have readFraction := fractional.read afterFraction
  have readExponent := exponential.read fun c hc => ⟨(ends.stops c hc).1, (ends.stops c hc).2.2⟩
  cases negative with
  | true =>
    simp [number?, readWhole, readFraction, readExponent]
  | false =>
    obtain ⟨c, t, starts, isDigit⟩ := decimals.starts
    have minus : c ≠ '-' := by rintro rfl; exact absurd isDigit (by decide)
    rw [starts, List.cons_append] at readWhole
    simp [number?, starts, minus, readWhole, readFraction, readExponent]

/-! ### Texts are read to their end -/

theorem Hex.read {n : Nat} {c : Char} (h : Hex n c) : hexDigit? c = some n := by
  obtain ⟨small, rfl | rfl⟩ := h <;> interval_cases n <;> decide

theorem SpellsUnit.read {n : Nat} {s rest : List Char} (h : SpellsUnit n s) :
    pieces? (s ++ rest) = (pieces? rest).map fun (ps, r) => (.unit n :: ps, r) := by
  obtain ⟨h₁, h₂, h₃, h₄⟩ := h
  simp only [List.cons_append, List.nil_append, pieces?, h₁.read, h₂.read, h₃.read, h₄.read]
  cases pieces? rest <;> rfl

theorem pieces?_plain {c : Char} (printable : 32 ≤ c.toNat) (quote : c ≠ '"')
    (backslash : c ≠ '\\') (rest : List Char) :
    pieces? (c :: rest) = (pieces? rest).map fun (ps, r) => (.char c :: ps, r) := by
  have : ¬ (c.toNat < 32 ∨ c = '\\') := by simp [printable, backslash]
  rw [pieces?]
  · simp only [this, if_false]
    cases pieces? rest <;> rfl
  · exact quote
  all_goals simp [backslash]

theorem pieces?_short {e c : Char} (h : (e, c) ∈ shortEscapes) (rest : List Char) :
    pieces? ('\\' :: e :: rest) = (pieces? rest).map fun (ps, r) => (.char c :: ps, r) := by
  simp only [shortEscapes, List.mem_cons, Prod.mk.injEq, List.not_mem_nil, or_false] at h
  rcases h with ⟨rfl, rfl⟩ | ⟨rfl, rfl⟩ | ⟨rfl, rfl⟩ | ⟨rfl, rfl⟩ | ⟨rfl, rfl⟩ | ⟨rfl, rfl⟩ |
    ⟨rfl, rfl⟩ | ⟨rfl, rfl⟩ <;>
  · simp only [pieces?]
    cases pieces? rest <;> rfl

/-- No unit in front of `ps` finds its other half there. -/
def NoLowHalf (ps : List Piece) : Prop :=
  ∀ low < 1024, ps.head? ≠ some (.unit (0xdc00 + low))

theorem characters?_unit {n : Nat} (h : n < 0xd800 ∨ 0xe000 ≤ n) (ps : List Piece) :
    characters? (.unit n :: ps) = (characters? ps).map (Char.ofNat n :: ·) := by
  have high : isHighSurrogate n = false := by simp [isHighSurrogate]; omega
  have low : isLowSurrogate n = false := by simp [isLowSurrogate]; omega
  rcases ps with _ | ⟨_ | _, ps⟩ <;> simp [characters?, high, low]

theorem characters?_pair {high low : Nat} (hh : high < 1024) (hl : low < 1024) (ps : List Piece) :
    characters? (.unit (0xd800 + high) :: .unit (0xdc00 + low) :: ps) =
      (characters? ps).map (Char.ofNat (0x10000 + high * 1024 + low) :: ·) := by
  have isHigh : isHighSurrogate (0xd800 + high) = true := by simp [isHighSurrogate]; omega
  have isLow : isLowSurrogate (0xdc00 + low) = true := by simp [isLowSurrogate]; omega
  simp [characters?, isHigh, isLow]

theorem characters?_low {low : Nat} (h : low < 1024) (ps : List Piece) :
    characters? (.unit (0xdc00 + low) :: ps) = none := by
  have isHigh : isHighSurrogate (0xdc00 + low) = false := by simp [isHighSurrogate]
  have isLow : isLowSurrogate (0xdc00 + low) = true := by simp [isLowSurrogate]; omega
  rcases ps with _ | ⟨_ | _, ps⟩ <;> simp [characters?, isHigh, isLow]

theorem characters?_high {high : Nat} (h : high < 1024) {ps : List Piece} (alone : NoLowHalf ps) :
    characters? (.unit (0xd800 + high) :: ps) = none := by
  have isHigh : isHighSurrogate (0xd800 + high) = true := by simp [isHighSurrogate]; omega
  rcases ps with _ | ⟨_ | n, ps⟩
  · simp [characters?, isHigh]
  · simp [characters?, isHigh]
  · have isLow : isLowSurrogate n = false := by
      by_contra low
      simp only [isLowSurrogate, Bool.and_eq_true, decide_eq_true_eq, Bool.not_eq_false] at low
      refine alone (n - 0xdc00) (by omega) ?_
      simp only [List.head?_cons, Option.some.injEq, Piece.unit.injEq]
      omega
    simp [characters?, isHigh, isLow]

theorem SpellsChar.read {c : Char} {s : List Char} (h : SpellsChar c s) :
    ∃ ps, (∀ rest, pieces? (s ++ rest) = (pieces? rest).map fun (qs, r) => (ps ++ qs, r)) ∧
      ∀ qs, characters? (ps ++ qs) = (characters? qs).map (c :: ·) ∧ NoLowHalf (ps ++ qs) := by
  cases h with
  | plain printable quote backslash =>
    exact ⟨[.char c], pieces?_plain printable quote backslash,
      fun qs => ⟨rfl, fun low _ => by simp⟩⟩
  | short escape =>
    exact ⟨[.char c], pieces?_short escape, fun qs => ⟨rfl, fun low _ => by simp⟩⟩
  | @unit n s spelled whole =>
    refine ⟨[.unit n], fun rest => spelled.read, fun qs => ⟨characters?_unit whole qs, ?_⟩⟩
    intro low _
    simp only [List.cons_append, List.head?_cons, ne_eq, Option.some.injEq, Piece.unit.injEq]
    omega
  | @pair high low s t hh hl spelledHigh spelledLow =>
    refine ⟨[.unit (0xd800 + high), .unit (0xdc00 + low)], fun rest => ?_,
      fun qs => ⟨characters?_pair hh hl qs, ?_⟩⟩
    · rw [List.append_assoc, spelledHigh.read, spelledLow.read]
      cases pieces? rest <;> rfl
    · intro low _
      simp only [List.cons_append, List.head?_cons, ne_eq, Option.some.injEq, Piece.unit.injEq]
      omega

/-- The pieces of a text start with a low half only if the text itself does. -/
theorem SpellsText.read_pieces {t : Option (List Char)} {s : List Char} (h : SpellsText t s)
    (rest : List Char) :
    ∃ ps, pieces? (s ++ '"' :: rest) = some (ps, rest) ∧ characters? ps = t ∧
      (¬ StartsWithLowHalf s → NoLowHalf ps) := by
  induction h with
  | nil => exact ⟨[], rfl, rfl, fun _ low _ => by simp⟩
  | char spelled _ ih =>
    obtain ⟨qs, reads, rfl, -⟩ := ih
    obtain ⟨ps, read, kept⟩ := spelled.read
    refine ⟨ps ++ qs, ?_, (kept qs).1, fun _ => (kept qs).2⟩
    rw [List.append_assoc, read, reads]
    rfl
  | @low n s rest' t small spelled _ ih =>
    obtain ⟨qs, reads, rfl, -⟩ := ih
    refine ⟨.unit (0xdc00 + n) :: qs, ?_, characters?_low small qs, ?_⟩
    · rw [List.append_assoc, spelled.read, reads]
      rfl
    · exact fun alone => absurd ⟨n, s, rest', small, spelled, rfl⟩ alone
  | @high n s rest' t small spelled alone _ ih =>
    obtain ⟨qs, reads, rfl, kept⟩ := ih
    refine ⟨.unit (0xd800 + n) :: qs, ?_, characters?_high small (kept alone), ?_⟩
    · rw [List.append_assoc, spelled.read, reads]
      rfl
    · intro _ low _
      simp only [List.head?_cons, ne_eq, Option.some.injEq, Piece.unit.injEq]
      omega

theorem SpellsText.read {t : Option (List Char)} {s : List Char} (h : SpellsText t s)
    (rest : List Char) : text? (s ++ '"' :: rest) = some (t.map String.ofList, rest) := by
  obtain ⟨ps, pieces, characters, -⟩ := h.read_pieces rest
  simp [text?, pieces, characters]

/-! ### Documents are read to their end -/

/-- A character that a phrase may begin with, which no closing bracket is. -/
structure Opens (c : Char) : Prop where
  visible : isBlank c = false
  bracket : c ≠ ']'
  brace : c ≠ '}'

theorem Opens.of_isDigit {c : Char} (h : c.isDigit = true) : Opens c := by
  refine ⟨?_, ?_, ?_⟩
  · by_contra blank
    simp only [isBlank, Bool.not_eq_false, Bool.or_eq_true, beq_iff_eq] at blank
    rcases blank with ((rfl | rfl) | rfl) | rfl <;> exact absurd h (by decide)
  · rintro rfl
    exact absurd h (by decide)
  · rintro rfl
    exact absurd h (by decide)

theorem SpellsNumber.starts {n : Number} {s : List Char} (h : SpellsNumber n s) :
    ∃ c t, s = c :: t ∧ (c = '-' ∨ c.isDigit = true) := by
  obtain @⟨negative, whole, _, _, f, e, decimals, -, -, -⟩ := h
  obtain ⟨c, t, starts, isDigit⟩ := decimals.starts
  cases negative with
  | true => exact ⟨'-', spellDigits whole ++ (f ++ e), rfl, .inl rfl⟩
  | false => exact ⟨c, t ++ (f ++ e), by simp [starts], .inr isDigit⟩

def Starts (s : List Char) : Prop :=
  ∃ b c t, s = b ++ c :: t ∧ Blanks b ∧ Opens c

theorem Spells.starts {phrase : Phrase} {s : List Char} (h : Spells phrase s) : Starts s := by
  induction h with
  | null | yes | no | text | noItems | array | noMembers | object =>
    exact ⟨[], _, _, rfl, .nil, ⟨by decide, by decide, by decide⟩⟩
  | number spelled =>
    obtain ⟨c, t, rfl, rfl | isDigit⟩ := spelled.starts
    · exact ⟨[], '-', t, rfl, .nil, ⟨by decide, by decide, by decide⟩⟩
    · exact ⟨[], c, t, rfl, .nil, .of_isDigit isDigit⟩
  | @spaced j b s b' before _ _ ih =>
    obtain ⟨b₀, c, t, rfl, blanks, opens⟩ := ih
    refine ⟨b ++ b₀, c, t ++ b', by simp, ?_, opens⟩
    intro d hd
    rcases List.mem_append.1 hd with hd | hd
    exacts [before d hd, blanks d hd]
  | key before => exact ⟨_, '"', _, rfl, before, ⟨by decide, by decide, by decide⟩⟩
  | item _ ih | member _ ih => exact ih
  | @items _ _ _ u _ _ ih _ | @members _ _ _ u _ _ ih _ =>
    obtain ⟨b, c, t, rfl, rest⟩ := ih
    exact ⟨b, c, t ++ ',' :: u, by simp, rest⟩

theorem Spells.length_pos {phrase : Phrase} {s : List Char} (h : Spells phrase s) :
    0 < s.length := by
  obtain ⟨b, c, t, rfl, -⟩ := h.starts
  simp

theorem SpellsNumber.read_value {n : Number} {s rest : List Char} (h : SpellsNumber n s)
    (ends : Ends rest) (fuel : Nat) : value? (fuel + 1) (s ++ rest) = some (.number n, rest) := by
  have read := h.read ends
  obtain ⟨c, t, rfl, first⟩ := h.starts
  have visible : isBlank c = false := by
    rcases first with rfl | isDigit
    exacts [rfl, (Opens.of_isDigit isDigit).visible]
  -- what begins a number begins no other value
  have other : ∀ d ∈ ['n', 't', 'f', '"', '[', '{'], c ≠ d := by
    rintro d hd rfl
    simp only [List.mem_cons, List.not_mem_nil, or_false] at hd
    rcases hd with rfl | rfl | rfl | rfl | rfl | rfl <;> exact absurd first (by decide)
  simp only [List.mem_cons, List.not_mem_nil, or_false, forall_eq_or_imp, forall_eq] at other
  rw [List.cons_append] at read ⊢
  rw [value?, skipBlanks_cons visible]
  split <;> simp_all

theorem value?_array {s rest : List Char} (starts : Starts s) {fuel : Nat} {js : List Json}
    (read : items? fuel (s ++ ']' :: rest) = some (js, rest)) :
    value? (fuel + 1) ('[' :: (s ++ ']' :: rest)) = some (.array js, rest) := by
  obtain ⟨b, c, t, rfl, blanks, opens⟩ := starts
  rw [← items?_skipBlanks, List.append_assoc, blanks.skip, List.cons_append,
    skipBlanks_cons opens.visible] at read
  simp [value?, skipBlanks_cons (c := '[') rfl, blanks.skip, skipBlanks_cons opens.visible,
    opens.bracket, read]

theorem value?_object {s rest : List Char} (starts : Starts s) {fuel : Nat}
    {ms : List (Text × Json)} (read : members? fuel (s ++ '}' :: rest) = some (ms, rest)) :
    value? (fuel + 1) ('{' :: (s ++ '}' :: rest)) = some (.object ms, rest) := by
  obtain ⟨b, c, t, rfl, blanks, opens⟩ := starts
  rw [← members?_skipBlanks, List.append_assoc, blanks.skip, List.cons_append,
    skipBlanks_cons opens.visible] at read
  simp [value?, skipBlanks_cons (c := '{') rfl, blanks.skip, skipBlanks_cons opens.visible,
    opens.brace, read]

/-- The reader reads a phrase that begins a text, if the fuel suffices for the characters: a value
takes one level and at least one character, and a list of them one level more for each. -/
def Phrase.Reads (s : List Char) : Phrase → Prop
  | .value j => ∀ fuel rest, 2 * s.length ≤ fuel + 2 → Ends rest →
    value? (fuel + 1) (s ++ rest) = some (j, rest)
  | .spaced j => ∀ fuel rest, 2 * s.length ≤ fuel + 2 → Ends rest →
    ∃ r, value? (fuel + 1) (s ++ rest) = some (j, r) ∧ skipBlanks r = skipBlanks rest
  | .items js => ∀ fuel rest, 2 * s.length ≤ fuel + 2 →
    items? (fuel + 2) (s ++ ']' :: rest) = some (js, rest)
  | .member m => ∀ fuel rest, 2 * s.length ≤ fuel + 2 →
    members? (fuel + 2) (s ++ '}' :: rest) = some ([m], rest) ∧
    members? (fuel + 2) (s ++ ',' :: rest) =
      (members? (fuel + 1) rest).map fun (ms, r) => (m :: ms, r)
  | .members ms => ∀ fuel rest, 2 * s.length ≤ fuel + 2 →
    members? (fuel + 2) (s ++ '}' :: rest) = some (ms, rest)

theorem Spells.read {phrase : Phrase} {s : List Char} (h : Spells phrase s) :
    phrase.Reads s := by
  induction h with
  | null | yes | no => exact fun _ _ _ _ => rfl
  | number spelled => exact fun fuel _ _ ends => spelled.read_value ends fuel
  | text spelled =>
    intro fuel rest _ _
    simp [value?, skipBlanks_cons (c := '"') rfl, spelled.read]
  | noItems blanks =>
    intro fuel rest _ _
    simp [value?, skipBlanks_cons (c := '[') rfl, blanks.skip, skipBlanks_cons (c := ']') rfl]
  | noMembers blanks =>
    intro fuel rest _ _
    simp [value?, skipBlanks_cons (c := '{') rfl, blanks.skip, skipBlanks_cons (c := '}') rfl]
  | @array js s items ih =>
    intro fuel rest enough _
    simp only [List.length_cons, List.length_append, List.length_nil] at enough
    obtain ⟨fuel, rfl⟩ := Nat.exists_eq_add_of_le' (show 2 ≤ fuel by omega)
    simpa using value?_array items.starts (ih fuel rest (by omega))
  | @object ms s members ih =>
    intro fuel rest enough _
    simp only [List.length_cons, List.length_append, List.length_nil] at enough
    obtain ⟨fuel, rfl⟩ := Nat.exists_eq_add_of_le' (show 2 ≤ fuel by omega)
    simpa using value?_object members.starts (ih fuel rest (by omega))
  | @spaced j b s b' before _ after ih =>
    intro fuel rest enough ends
    simp only [List.length_append] at enough
    refine ⟨b' ++ rest, ?_, after.skip rest⟩
    rw [List.append_assoc, List.append_assoc, value?_congr _ (before.skip _)]
    exact ih fuel _ (by omega) (after.ends ends)
  | item _ ih =>
    intro fuel rest enough
    obtain ⟨r, read, skip⟩ := ih fuel (']' :: rest) enough (by simp [Ends])
    simp [items?, read, skip, skipBlanks_cons (c := ']') rfl]
  | @items j js s t first more ih ihs =>
    intro fuel rest enough
    have := first.length_pos
    have := more.length_pos
    simp only [List.length_append, List.length_cons] at enough
    obtain ⟨fuel, rfl⟩ := Nat.exists_eq_add_of_le' (show 1 ≤ fuel by omega)
    obtain ⟨r, read, skip⟩ := ih (fuel + 1) (',' :: (t ++ ']' :: rest)) (by omega) (by simp [Ends])
    have reads := ihs fuel rest (by omega)
    rw [List.append_assoc, List.cons_append, items?]
    simp [read, skip, skipBlanks_cons (c := ',') rfl, reads]
  | @key t j b k b' s before keyed between _ ih =>
    intro fuel rest enough
    simp only [List.length_append, List.length_cons] at enough
    -- the mark after the member decides whether the object ends
    constructor
    · obtain ⟨r, read, skip⟩ := ih fuel ('}' :: rest) (by omega) (by simp [Ends])
      simp [members?, before.skip, skipBlanks_cons (c := '"') rfl, keyed.read, between.skip,
        skipBlanks_cons (c := ':') rfl, read, skip, skipBlanks_cons (c := '}') rfl]
    · obtain ⟨r, read, skip⟩ := ih fuel (',' :: rest) (by omega) (by simp [Ends])
      rw [members?]
      simp only [before.skip, skipBlanks_cons (c := '"') rfl, keyed.read, between.skip,
        skipBlanks_cons (c := ':') rfl, read, skip, skipBlanks_cons (c := ',') rfl,
        List.append_assoc, List.cons_append, Option.bind_eq_bind, Option.bind_some]
      cases members? (fuel + 1) rest <;> rfl
  | member _ ih => exact fun fuel rest enough => (ih fuel rest enough).1
  | @members m ms s t first more ih ihs =>
    intro fuel rest enough
    have := first.length_pos
    have := more.length_pos
    simp only [List.length_append, List.length_cons] at enough
    obtain ⟨fuel, rfl⟩ := Nat.exists_eq_add_of_le' (show 1 ≤ fuel by omega)
    rw [List.append_assoc, List.cons_append,
      (ih (fuel + 1) (t ++ '}' :: rest) (by omega)).2, ihs fuel rest (by omega)]
    rfl

theorem Spells.read_document {j : Json} {s : List Char} (h : Spells (.spaced j) s) :
    ofText? s = some j := by
  obtain ⟨r, read, skip⟩ := h.read (2 * s.length) [] (by omega) (by simp [Ends])
  rw [List.append_nil] at read
  have done : skipBlanks r = [] := skip
  simp [ofText?, read, done]

end Handset.Json
