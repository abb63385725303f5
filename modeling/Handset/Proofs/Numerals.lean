import Handset.Json.Number
import Handset.Proofs.Values

/-! What numerals stand for. A numeral of a few digits is the rational that it spells, and is read as
the number nearest to it; there is one rounding for a double, and one more for a single. -/

namespace Handset

theorem Format.whole_double : Format.double.Whole :=
  ⟨by decide, by decide, by decide⟩

namespace Floating

variable {format : Format}

theorem neg_rounded (negative : Bool) (q : ℚ) :
    -(rounded negative q : Floating format) = rounded (!negative) q := by
  have opposite (x : Floating format) : -x = x.neg := rfl
  unfold rounded
  rw [opposite]
  dsimp only
  split_ifs <;> rfl

/-- What one format holds is rounded once, by way of it, for another. -/
theorem convert_rounded {target : Format} (whole : format.Whole) (negative : Bool) {q : ℚ}
    (holds : format.Holds q) (nonneg : 0 ≤ q) (below : q < format.limit) :
    (rounded negative q : Floating format).convert = (rounded negative q : Floating target) := by
  obtain ⟨m, e, same, value⟩ := exists_rounded whole negative nonneg below
  have ratio : ((m : ℕ) / (1 : ℕ) * 2 ^ e : ℚ) = q := by
    rw [Nat.cast_one, div_one, value, holds.round_eq]
  rw [same, convert, nearest_eq_rounded negative m one_pos, ratio]

theorem ofInt_eq_rounded (n : ℕ) (negative : Bool) (nonzero : negative = true → 0 < n) :
    (ofInt (if negative then -n else n) : Floating format) = rounded negative n := by
  have ratio : ((n : ℕ) / (1 : ℕ) * 2 ^ (0 : ℤ) : ℚ) = n := by simp
  have sign : decide ((if negative then -n else n : ℤ) < 0) = negative := by
    cases negative with
    | false => simp
    | true => simpa using nonzero rfl
  have size : (if negative then -n else n : ℤ).natAbs = n := by
    cases negative <;> simp
  rw [ofInt, sign, size, nearest_eq_rounded negative n one_pos, ratio]

end Floating

namespace Json.Number

open Floating (rounded)

/-- The digits before and after the point. -/
def digits (n : Number) : List Nat :=
  n.whole ++ n.fraction.getD []

/-- By how many places the point is moved to the right of the last digit. -/
def shift (n : Number) : Int :=
  match n.exponent with
  | none => -(n.fraction.getD []).length
  | some (true, e) => -(n.fraction.getD []).length - value e
  | some (false, e) => -(n.fraction.getD []).length + value e

/-- What a numeral stands for but for its sign. -/
def worth (n : Number) : ℚ :=
  value n.digits * 10 ^ n.shift

/-- A double has all the digits of the numeral, and the power of ten that they are multiplied with. -/
structure Short (n : Number) : Prop where
  digits : value n.digits < 2 ^ 53
  shift : n.shift.natAbs ≤ 22
  exponent : ∀ e ∈ n.exponent, (value e.2 : Int) ≤ greatestInt

/-- The single nearest to the double that is nearest to what the numeral stands for. -/
def nearestSingle (n : Number) : Single :=
  (rounded n.negative n.worth : Double).convert

theorem le_foldl (ds : List Nat) (word : Nat) :
    word ≤ ds.foldl (fun n d => n * 10 + d) word := by
  induction ds generalizing word with
  | nil => exact Nat.le_refl word
  | cons d ds ih => exact Nat.le_trans (by omega) (ih (word * 10 + d))

/-- No digit is left out that a word has place for. -/
theorem accumulate_eq {ds : List Nat} {word : Nat}
    (fits : ds.foldl (fun n d => n * 10 + d) word ≤ greatestWord) :
    accumulate word ds = (ds.foldl (fun n d => n * 10 + d) word, 0) := by
  induction ds generalizing word with
  | nil => rfl
  | cons d ds ih =>
    have here : word * 10 + d ≤ greatestWord := Nat.le_trans (le_foldl ds _) fits
    rw [accumulate, if_pos here]
    exact ih fits

theorem lt_limit_double {q : ℚ} (le : q ≤ 2 ^ (127 : ℤ)) : q < Format.double.limit :=
  le.trans_lt (zpow_lt_zpow_right₀ one_lt_two (by decide))

/-- A double has the powers of ten up to `10 ^ 22`. -/
theorem means_power {k : Nat} (small : k ≤ 22) : (power k : Double).Means (10 ^ k) := by
  have ratio : ((10 ^ k : ℕ) / (1 : ℕ) * 2 ^ (0 : ℤ) : ℚ) = 10 ^ k := by simp
  have holds : Format.double.Holds (10 ^ k : ℚ) := by
    refine ⟨5 ^ k, k, ?_, ?_, ?_⟩
    · calc 5 ^ k ≤ 5 ^ 22 := Nat.pow_le_pow_right (by decide) small
        _ < 2 ^ Format.double.precision := by decide
    · exact (by decide : Format.double.least ≤ 0).trans (Int.natCast_nonneg k)
    · rw [zpow_natCast, Nat.cast_pow, Nat.cast_ofNat, ← mul_pow]
      norm_num
  have le : (10 ^ k : ℚ) ≤ 2 ^ (127 : ℤ) := by
    calc (10 ^ k : ℚ) ≤ 10 ^ 22 := pow_le_pow_right₀ (by norm_num) small
      _ ≤ 2 ^ (127 : ℤ) := by norm_num
  have means := Floating.means_nearest Format.whole_double (n := 10 ^ k) one_pos
    (ratio ▸ lt_limit_double le)
  rw [ratio, holds.round_eq] at means
  exact means

/-- A double has the integers of up to 53 bits. -/
theorem means_word {word : Nat} (short : word < 2 ^ 53) : (.ofInt word : Double).Means word := by
  have holds : Format.double.Holds word :=
    Format.holds_natCast (by decide) (by decide) (Nat.le_of_lt short)
  have le : (word : ℚ) ≤ 2 ^ 53 := by exact_mod_cast Nat.le_of_lt short
  have means := Floating.means_ofInt Format.whole_double (n := word)
    (lt_limit_double (le.trans (by norm_num)))
  rwa [holds.round_eq] at means

/-- An integer that a double has, multiplied with a power of ten that it has, is rounded once. -/
theorem scaled_eq {word : Nat} {shift : Int} (short : word < 2 ^ 53) (small : shift.natAbs ≤ 22)
    (fuel : Nat) :
    scaled (.ofInt word) shift (fuel + 1) = some (rounded false (word * 10 ^ shift)) := by
  have means := means_word short
  have power_means := means_power small
  rw [scaled, if_pos (by omega)]
  by_cases down : shift < 0
  · have places : (10 : ℚ) ^ shift = (10 ^ shift.natAbs)⁻¹ := by
      have opposite : shift = -(shift.natAbs : ℤ) := by omega
      rw [← zpow_natCast, ← zpow_neg, ← opposite]
    rw [if_pos down, means.div_eq_rounded power_means (by positivity), places, div_eq_mul_inv]
  · have places : (10 : ℚ) ^ shift = 10 ^ shift.natAbs := by
      have same : shift = (shift.natAbs : ℤ) := by omega
      rw [← zpow_natCast, ← same]
    have below : (word * 10 ^ shift.natAbs : ℚ) < Format.double.limit := by
      have le : (word : ℚ) ≤ 2 ^ 53 := by exact_mod_cast Nat.le_of_lt short
      refine lt_limit_double ?_
      calc (word * 10 ^ shift.natAbs : ℚ) ≤ 2 ^ 53 * 10 ^ 22 := by
            gcongr
            norm_num
        _ ≤ 2 ^ (127 : ℤ) := by norm_num
    obtain ⟨m, e, finite, -⟩ := means.mul Format.whole_double power_means below
    simp only [if_neg down, places, ← means.mul_eq_rounded power_means]
    rw [finite]
    rfl

variable {n : Number}

theorem value_digits (n : Number) :
    value n.digits = (n.fraction.getD []).foldl (fun n d => n * 10 + d) (value n.whole) :=
  List.foldl_append ..

theorem saturate_of_small {i : Int} (small : i.natAbs ≤ 22) : saturate i = i := by
  unfold saturate leastInt greatestInt
  omega

theorem magnitude?_eq (short : n.Short) : n.magnitude? = some (rounded false n.worth) := by
  obtain ⟨few, small, counted⟩ := short
  have word := value_digits n
  have whole_le : value n.whole ≤ value n.digits := word ▸ le_foldl _ _
  have whole : accumulate 0 n.whole = (value n.whole, 0) :=
    accumulate_eq (by unfold greatestWord; exact Nat.le_trans whole_le (by omega))
  have all : accumulate (value n.whole) (n.fraction.getD []) = (value n.digits, 0) := by
    rw [word]
    exact accumulate_eq (by unfold greatestWord; omega)
  have point : ((0 : Nat) : Int) - ((n.fraction.getD []).length - 0 : Nat) =
      -(n.fraction.getD []).length := by omega
  simp only [magnitude?, whole, all, point]
  cases written : n.exponent with
  | none =>
    have places : n.shift = -(n.fraction.getD []).length := by
      rw [Number.shift, written]
    dsimp only
    rw [← places, scaled_eq few small]
    rfl
  | some pair =>
    obtain ⟨down, e⟩ := pair
    have inRange : ¬ greatestInt < (value e : Int) := Int.not_lt.mpr (counted _ written)
    have places : n.shift = if down then -(n.fraction.getD []).length - (value e : Int)
        else -(n.fraction.getD []).length + (value e : Int) := by
      rw [Number.shift, written]
      cases down <;> rfl
    dsimp only
    rw [if_neg inRange, ← places, saturate_of_small small, scaled_eq few small]
    rfl

theorem toDouble?_eq (short : n.Short) : n.toDouble? = some (rounded n.negative n.worth) := by
  rw [toDouble?, magnitude?_eq short, Option.map_some]
  cases n.negative with
  | false => rfl
  | true => exact congrArg some (Floating.neg_rounded false n.worth)

/-- The digits of an integer are all that it stands for. -/
theorem toInt?_eq_some {i : Int} (read : n.toInt? = some i) :
    n.worth = value n.digits ∧ i = (if n.negative then -(value n.digits : Int) else value n.digits) ∧
      (n.negative = true → 0 < value n.digits) := by
  obtain ⟨negative, whole, _ | fraction, _ | exponent⟩ := n
  · have places : shift ⟨negative, whole, none, none⟩ = 0 := rfl
    have same : digits ⟨negative, whole, none, none⟩ = whole := List.append_nil whole
    rw [worth, places, zpow_zero, mul_one, same]
    refine ⟨rfl, ?_⟩
    cases negative with
    | false =>
      simp only [toInt?, Bool.false_eq_true, if_false] at read ⊢
      split at read
      · exact ⟨(Option.some.inj read).symm, nofun⟩
      · cases read
    | true =>
      simp only [toInt?, if_true] at read ⊢
      split at read
      · rename_i bounds
        exact ⟨(Option.some.inj read).symm, fun _ => bounds.1⟩
      · cases read
  · cases read
  · cases read
  · cases read

/-- A short numeral is read as what it stands for. -/
theorem toSingle?_eq (short : n.Short) : n.toSingle? = some n.nearestSingle := by
  unfold toSingle? nearestSingle
  cases read : n.toInt? with
  | none => simp only [toDouble?_eq short, Option.map_some]
  | some i =>
    obtain ⟨worth, rfl, nonzero⟩ := toInt?_eq_some read
    have holds : Format.double.Holds (value n.digits) :=
      Format.holds_natCast (by decide) (by decide) (Nat.le_of_lt short.digits)
    have le : (value n.digits : ℚ) ≤ 2 ^ (127 : ℤ) := by
      have few : (value n.digits : ℚ) ≤ 2 ^ 53 := by exact_mod_cast Nat.le_of_lt short.digits
      exact few.trans (by norm_num)
    rw [worth, Floating.convert_rounded Format.whole_double n.negative holds (Nat.cast_nonneg _)
      (lt_limit_double le), ← Floating.ofInt_eq_rounded (value n.digits) n.negative nonzero]

/-- What a single has is read as it is, in whichever way a short numeral spells it. -/
theorem toSingle?_of_holds (short : n.Short) (holds : Format.single.Holds n.worth)
    (below : n.worth < Format.single.limit) :
    ∃ (m : ℕ) (e : ℤ), n.toSingle? = some (.finite n.negative m e) ∧ (m : ℚ) * 2 ^ e = n.worth := by
  have nonneg : 0 ≤ n.worth := mul_nonneg (Nat.cast_nonneg _) (by positivity)
  have holds' : Format.double.Holds n.worth := by
    obtain ⟨m, e, few, least, same⟩ := holds
    refine ⟨m, e, few.trans (by decide), le_trans (by decide) least, same⟩
  have le : n.worth ≤ 2 ^ (127 : ℤ) := below.le
  obtain ⟨m, e, same, value⟩ :=
    Floating.exists_rounded Format.whole_single n.negative nonneg below
  refine ⟨m, e, ?_, value.trans holds.round_eq⟩
  rw [toSingle?_eq short, nearestSingle,
    Floating.convert_rounded Format.whole_double n.negative holds' nonneg (lt_limit_double le), same]

end Json.Number

end Handset
