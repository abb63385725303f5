import Handset.Config.Document
import Handset.Proofs.Numerals
import Mathlib.Data.List.Perm.Basic

/-! How a structure is written that gives some of its fields: as an object of them in any order,
with whatever else in between, or as an array of the first fields. Either way each field is read as
what it was written for, and one that is not given as its default. -/

namespace Handset

namespace Json

/-- A field of a structure and, if it is given, what its value has to be. -/
structure Slot where
  name : String
  given : Option (Json → Prop)

def Slot.of {α : Type} (name : String) (writes : α → Json → Prop) (value : Option α) : Slot :=
  ⟨name, value.map writes⟩

/-- The members that give the fields, in the order of the slots. -/
inductive Gives : List Slot → List (String × Json) → Prop
  | nil : Gives [] []
  | given {name : String} {p : Json → Prop} {j : Json} {slots : List Slot}
    {ms : List (String × Json)} : p j → Gives slots ms →
    Gives (⟨name, some p⟩ :: slots) ((name, j) :: ms)
  | omitted {name : String} {slots : List Slot} {ms : List (String × Json)} : Gives slots ms →
    Gives (⟨name, none⟩ :: slots) ms

/-- The items that give the first fields, where no field after them is given. -/
inductive Lists : List Slot → List Json → Prop
  | nil {slots : List Slot} : (∀ slot ∈ slots, slot.given = none) → Lists slots []
  | cons {name : String} {p : Json → Prop} {j : Json} {slots : List Slot} {js : List Json} :
    p j → Lists slots js → Lists (⟨name, some p⟩ :: slots) (j :: js)

/-- A structure of the given fields. The fields of an object may come in any order and among fields
of other names, and these may have any value and repeat. -/
inductive Holds (slots : List Slot) : Json → Prop
  | object {ms given : List (String × Json)} : Gives slots given →
    (ms.filter fun m => (slots.map Slot.name).contains m.1).Perm given →
    Holds slots (.object (ms.map fun m => (some m.1, m.2)))
  | array {js : List Json} : Lists slots js → Holds slots (.array js)

/-- What the members have for a slot. -/
def Slot.Found (ms : List (String × Json)) (slot : Slot) : Prop :=
  match slot.given with
  | none => ∀ m ∈ ms, m.1 ≠ slot.name
  | some p => ∃ j, (slot.name, j) ∈ ms ∧ p j

theorem Slot.Found.perm {slot : Slot} {ms ms' : List (String × Json)} (h : slot.Found ms)
    (perm : ms.Perm ms') : slot.Found ms' := by
  obtain ⟨name, _ | p⟩ := slot
  · exact fun m hm => h m (perm.mem_iff.2 hm)
  · obtain ⟨j, mem, holds⟩ := h
    exact ⟨j, perm.mem_iff.1 mem, holds⟩

variable {slots : List Slot} {fields ms : List (String × Json)}

theorem Gives.keys (h : Gives slots ms) : (ms.map Prod.fst).Sublist (slots.map Slot.name) := by
  induction h with
  | nil => exact .slnil
  | given _ _ ih => exact ih.cons_cons _
  | omitted _ ih => exact ih.cons _

theorem Gives.empty (h : ∀ slot ∈ slots, slot.given = none) : Gives slots [] := by
  induction slots with
  | nil => exact .nil
  | cons slot slots ih =>
    obtain ⟨name, given⟩ := slot
    obtain rfl : given = none := h ⟨name, given⟩ (by simp)
    exact .omitted (ih fun slot hs => h slot (by simp [hs]))

theorem Lists.gives {js : List Json} (h : Lists slots js) :
    js.length ≤ slots.length ∧ Gives slots ((slots.map Slot.name).zip js) := by
  induction h with
  | nil rest => simpa using Gives.empty rest
  | cons holds _ ih => exact ⟨by simpa using ih.1, .given holds ih.2⟩

theorem Gives.found (h : Gives slots ms) (distinct : (slots.map Slot.name).Nodup) :
    ∀ slot ∈ slots, slot.Found ms := by
  induction h with
  | nil => simp
  | @given name p j slots ms holds gives ih =>
    obtain ⟨fresh, distinct⟩ := List.nodup_cons.1 distinct
    refine List.forall_mem_cons.2 ⟨⟨j, by simp, holds⟩, fun slot hs => ?_⟩
    have found := ih distinct slot hs
    have other : name ≠ slot.name := fun same =>
      fresh (List.mem_map.2 ⟨slot, hs, same.symm⟩)
    obtain ⟨_, _ | q⟩ := slot
    · exact List.forall_mem_cons.2 ⟨other, found⟩
    · obtain ⟨j', mem, holds⟩ := found
      exact ⟨j', List.mem_cons_of_mem _ mem, holds⟩
  | @omitted name slots ms gives ih =>
    obtain ⟨fresh, distinct⟩ := List.nodup_cons.1 distinct
    refine List.forall_mem_cons.2 ⟨fun m hm same => fresh ?_, ih distinct⟩
    exact gives.keys.subset (List.mem_map.2 ⟨m, hm, same⟩)

theorem mapM_named (ms : List (String × Json)) :
    (ms.map fun m => ((some m.1 : Text), m.2)).mapM (fun (key, value) => key.map (·, value)) =
      some ms := by
  induction ms with
  | nil => rfl
  | cons m ms ih => simp [ih]

/-- An object is read as its members of known names, an array as the members that its items make. -/
theorem Holds.read {j : Json} (h : Holds slots j) (distinct : (slots.map Slot.name).Nodup) :
    ∃ fields, j.fields? (slots.map Slot.name) = some fields ∧ (fields.map Prod.fst).Nodup ∧
      ∀ slot ∈ slots, slot.Found fields := by
  cases h with
  | @object ms given gives perm =>
    have keys : ((ms.filter fun m => (slots.map Slot.name).contains m.1).map Prod.fst).Nodup :=
      (perm.map Prod.fst).nodup_iff.2 (gives.keys.nodup distinct)
    refine ⟨_, ?_, keys, fun slot hs => (gives.found distinct slot hs).perm perm.symm⟩
    simp only [fields?, mapM_named, Option.bind_eq_bind, Option.bind_some, keys, if_true]
  | @array js lists =>
    obtain ⟨short, gives⟩ := lists.gives
    exact ⟨_, by simp [fields?, short], gives.keys.nodup distinct, gives.found distinct⟩

theorem lookup_eq_some_of_mem (distinct : (fields.map Prod.fst).Nodup) {name : String} {j : Json}
    (h : (name, j) ∈ fields) : fields.lookup name = some j := by
  obtain ⟨before, after, rfl⟩ := List.append_of_mem h
  refine List.lookup_eq_some_iff.2 ⟨before, after, rfl, fun m hm => ?_⟩
  simp only [List.map_append, List.map_cons, List.nodup_append, List.mem_map] at distinct
  simpa using (distinct.2.2 m.1 ⟨m, hm, rfl⟩ name (by simp)).symm

section Field

variable {α β : Type} {name : String} {writes : α → Json → Prop} {value : Option α}

theorem Slot.Found.lookup {a : α} (h : (Slot.of name writes (some a)).Found fields)
    (distinct : (fields.map Prod.fst).Nodup) : ∃ j, fields.lookup name = some j ∧ writes a j := by
  obtain ⟨j, mem, written⟩ := h
  exact ⟨j, lookup_eq_some_of_mem distinct mem, written⟩

/-- A field is read as what its value stands for, or as its default where it is not given. -/
theorem Slot.Found.field (h : (Slot.of name writes value).Found fields)
    (distinct : (fields.map Prod.fst).Nodup) {read : Json → Option β} {f : α → β}
    (reads : ∀ a j, writes a j → read j = some (f a)) (default : β) :
    Json.field fields name read default = some (value.elim default f) := by
  cases value with
  | none =>
    have absent : fields.lookup name = none :=
      List.lookup_eq_none_iff.2 fun m hm => bne_iff_ne.2 (h m hm).symm
    simp [Json.field, absent]
  | some a =>
    obtain ⟨j, present, written⟩ := h.lookup distinct
    simp [Json.field, present, reads a j written]

theorem Slot.Found.field_getD (h : (Slot.of name writes value).Found fields)
    (distinct : (fields.map Prod.fst).Nodup) {read : Json → Option α}
    (reads : ∀ a j, writes a j → read j = some a) (default : α) :
    Json.field fields name read default = some (value.getD default) := by
  rw [h.field distinct (f := id) reads default]
  cases value <;> rfl

end Field

/-! ### Values -/

def WritesBool (b : Bool) (j : Json) : Prop :=
  j = .bool b

/-- An integer is written as its digits, and has a sign only if it is negative. -/
def WritesInt (least greatest n : Int) (j : Json) : Prop :=
  least ≤ n ∧ n ≤ greatest ∧
    ∃ digits, Number.value digits = n.natAbs ∧ j = .number ⟨decide (n < 0), digits, none, none⟩

def WritesInt32 : Int → Json → Prop :=
  WritesInt leastInt greatestInt

def WritesWord32 (n : Nat) : Json → Prop :=
  WritesInt 0 4294967295 n

def WritesColor (c : UInt32) : Json → Prop :=
  WritesWord32 c.toNat

/-- A single is written as any numeral that is nearest to it. What a short numeral is nearest to does not
depend on how it is read; a long one counts for what it is read as. -/
inductive WritesSingle : Single → Json → Prop
  | short {n : Number} (short : n.Short) : WritesSingle n.nearestSingle (.number n)
  | long {n : Number} {x : Single} (long : ¬ n.Short) (read : n.toSingle? = some x) :
    WritesSingle x (.number n)

def WritesList {α : Type} (writes : α → Json → Prop) (as : List α) (j : Json) : Prop :=
  ∃ js, List.Forall₂ writes as js ∧ j = .array js

theorem WritesBool.read (b : Bool) (j : Json) (h : WritesBool b j) : j.toBool? = some b := by
  subst h
  rfl

theorem WritesInt.read {least greatest n : Int} {j : Json} (h : WritesInt least greatest n j)
    (lower : -9223372036854775808 ≤ least) (upper : greatest ≤ Number.greatestWord) :
    j.toInt? = some n := by
  obtain ⟨le, ge, digits, value, rfl⟩ := h
  simp only [Json.toInt?, Number.toInt?, value, decide_eq_true_eq]
  split
  · rw [if_pos (by omega)]
    simp only [Option.some.injEq]
    omega
  · rw [if_pos (by omega)]
    simp only [Option.some.injEq]
    omega

theorem WritesInt32.read (n : Int) (j : Json) (h : WritesInt32 n j) : j.toInt32? = some n := by
  have := WritesInt.read h (by decide) (by decide)
  simp [toInt32?, this, Option.filter, h.1, h.2.1]

theorem WritesWord32.read (n : Nat) (j : Json) (h : WritesWord32 n j) : j.toWord32? = some n := by
  have := WritesInt.read h (by decide) (by decide)
  have := h.2.1
  simp_all [toWord32?, Option.filter]

theorem WritesColor.read (c : UInt32) (j : Json) (h : WritesColor c j) :
    j.toWord32?.map UInt32.ofNat = some c := by
  simp [WritesWord32.read _ j h]

theorem WritesSingle.read (x : Single) (j : Json) (h : WritesSingle x j) :
    j.toSingle? = some x := by
  cases h with
  | short short => exact Number.toSingle?_eq short
  | long long read => exact read

/-- Every numeral that is read writes what it is read as. -/
theorem writesSingle_of_read {n : Number} {x : Single} (read : n.toSingle? = some x) :
    WritesSingle x (.number n) := by
  by_cases short : n.Short
  · cases (Number.toSingle?_eq short).symm.trans read
    exact .short short
  · exact .long short read

theorem WritesList.read {α : Type} {writes : α → Json → Prop} {read : Json → Option α}
    (reads : ∀ a j, writes a j → read j = some a) (as : List α) (j : Json)
    (h : WritesList writes as j) : j.toList? read = some as := by
  obtain ⟨js, written, rfl⟩ := h
  simp only [toList?]
  induction written with
  | nil => rfl
  | cons first _ ih => simp [reads _ _ first, ih]

end Json

end Handset
