import Mathlib.Algebra.Order.Field.Power
import Mathlib.Algebra.Order.Floor.Semifield
import Mathlib.Data.Int.Log
import Mathlib.Data.Rat.Floor
import Mathlib.Tactic.FieldSimp
import Mathlib.Tactic.Linarith
import Mathlib.Tactic.Positivity
import Mathlib.Tactic.Ring
import Handset.Floating

/-! Rounding as a function on the rationals. It keeps the order, leaves alone what a format can hold,
and is off by no more than half of the last bit. -/

namespace Handset

variable {q r : ℚ}

/-- The nearest natural number, a tie going to the even one. -/
def halfEven (q : ℚ) : ℕ :=
  if 2 * (q - ⌊q⌋₊) < 1 ∨ (2 * (q - ⌊q⌋₊) = 1 ∧ ⌊q⌋₊ % 2 = 0) then ⌊q⌋₊ else ⌊q⌋₊ + 1

theorem halfEven_natCast (n : ℕ) : halfEven n = n := by
  simp [halfEven]

theorem floor_le_halfEven (q : ℚ) : ⌊q⌋₊ ≤ halfEven q := by
  unfold halfEven
  split <;> omega

theorem halfEven_le_floor_succ (q : ℚ) : halfEven q ≤ ⌊q⌋₊ + 1 := by
  unfold halfEven
  split <;> omega

theorem halfEven_mono (le : q ≤ r) : halfEven q ≤ halfEven r := by
  rcases (Nat.floor_mono le).lt_or_eq with lt | eq
  · exact (halfEven_le_floor_succ q).trans ((Nat.succ_le_of_lt lt).trans (floor_le_halfEven r))
  · -- With the same integer part, what is rounded up stays so as the rest grows.
    unfold halfEven
    rw [eq]
    split_ifs with down up up
    · omega
    · omega
    · rcases up with up | ⟨up, even⟩
      · exact absurd (Or.inl (by linarith)) down
      · rcases (show 2 * (q - ⌊r⌋₊) ≤ 1 by linarith).lt_or_eq with below | tie
        · exact absurd (Or.inl below) down
        · exact absurd (Or.inr ⟨tie, even⟩) down
    · omega

theorem abs_halfEven_sub_le (nonneg : 0 ≤ q) : |(halfEven q : ℚ) - q| ≤ 1 / 2 := by
  have floor := Nat.floor_le nonneg
  have above := Nat.lt_floor_add_one q
  unfold halfEven
  split_ifs with down
  · have rest : 2 * (q - ⌊q⌋₊) ≤ 1 := by
      rcases down with down | ⟨tie, -⟩ <;> linarith
    rw [abs_le]
    constructor <;> linarith
  · have rest : 1 ≤ 2 * (q - ⌊q⌋₊) := not_lt.mp fun below => down (Or.inl below)
    push_cast
    rw [abs_le]
    constructor <;> linarith

theorem roundHalfEven_eq (n : ℕ) {d : ℕ} (positive : 0 < d) :
    roundHalfEven n d = halfEven (n / d) := by
  have floor : ⌊(n / d : ℚ)⌋₊ = n / d := Nat.floor_div_eq_div n d
  have positive' : (0 : ℚ) < d := Nat.cast_pos.mpr positive
  have rest : 2 * ((n / d : ℚ) - (n / d : ℕ)) = (2 * (n % d) : ℕ) / (d : ℚ) := by
    have parts : ((d * (n / d) + n % d : ℕ) : ℚ) = n := by rw [Nat.div_add_mod]
    push_cast at parts ⊢
    field_simp
    linarith
  have below : (2 * (n % d) : ℕ) / (d : ℚ) < 1 ↔ 2 * (n % d) < d := by
    rw [div_lt_one positive', Nat.cast_lt]
  have tie : (2 * (n % d) : ℕ) / (d : ℚ) = 1 ↔ 2 * (n % d) = d := by
    rw [div_eq_one_iff_eq positive'.ne', Nat.cast_inj]
  simp only [roundHalfEven, halfEven, floor, rest, below, tie]

theorem log_eq {k : ℤ} (low : 2 ^ k ≤ q) (high : q < 2 ^ (k + 1)) : Int.log 2 q = k := by
  have positive : 0 < q := lt_of_lt_of_le (zpow_pos two_pos k) low
  have least := (Int.zpow_le_iff_le_log (b := 2) (by decide) positive).mp (by exact_mod_cast low)
  have most := (Int.lt_zpow_iff_log_lt (b := 2) (by decide) positive).mp (by exact_mod_cast high)
  omega

theorem zpow_log_le (positive : 0 < q) : (2 : ℚ) ^ Int.log 2 q ≤ q := by
  exact_mod_cast Int.zpow_log_le_self (b := 2) (by decide) positive

theorem lt_zpow_log (q : ℚ) : q < (2 : ℚ) ^ (Int.log 2 q + 1) := by
  exact_mod_cast Int.lt_zpow_succ_log_self (b := 2) (by decide) q

namespace Format

variable {format : Format}

/-- The exponent of the last bit of a number of this size. -/
def unit (format : Format) (q : ℚ) : ℤ :=
  max format.least (Int.log 2 q - (format.precision - 1))

/-- The nearest multiple of the last bit, were there no greatest number. -/
def round (format : Format) (q : ℚ) : ℚ :=
  halfEven (q / 2 ^ format.unit q) * 2 ^ format.unit q

/-- A number with no more bits than the precision, however great. -/
def Holds (format : Format) (q : ℚ) : Prop :=
  ∃ (m : ℕ) (e : ℤ), m < 2 ^ format.precision ∧ format.least ≤ e ∧ m * 2 ^ e = q

theorem unit_mono (format : Format) (positive : 0 < q) (le : q ≤ r) : format.unit q ≤ format.unit r := by
  have log := Int.log_mono_right (b := 2) positive le
  unfold unit
  omega

theorem unit_le {k : ℤ} (positive : 0 < q) (least : format.least ≤ k)
    (below : q < 2 ^ (k + format.precision)) : format.unit q ≤ k := by
  have log := (Int.lt_zpow_iff_log_lt (b := 2) (by decide) positive).mp (by exact_mod_cast below)
  unfold unit
  omega

theorem round_nonneg (format : Format) (q : ℚ) : 0 ≤ format.round q := by
  unfold round
  positivity

@[simp] theorem round_zero (format : Format) : format.round 0 = 0 := by
  simp [round, halfEven]

/-- A multiple of the last bit is not rounded. -/
theorem round_eq_self {n : ℕ} (whole : q / 2 ^ format.unit q = n) : format.round q = q := by
  rw [round, whole, halfEven_natCast, ← whole]
  exact div_mul_cancel₀ q (by positivity)

theorem exists_zpow_div {e e' : ℤ} (le : e ≤ e') (m : ℕ) :
    ∃ n : ℕ, (m : ℚ) * 2 ^ e' / 2 ^ e = n := by
  refine ⟨m * 2 ^ (e' - e).toNat, ?_⟩
  have power : (2 : ℚ) ^ (e' - e) = 2 ^ (e' - e).toNat := by
    rw [← zpow_natCast, Int.toNat_of_nonneg (by omega)]
  rw [mul_div_assoc, ← zpow_sub₀ two_ne_zero, power]
  push_cast
  rfl

theorem Holds.round_eq (holds : format.Holds q) : format.round q = q := by
  obtain ⟨m, e, short, least, rfl⟩ := holds
  rcases Nat.eq_zero_or_pos m with rfl | positive
  · simp
  · have high : (m : ℚ) * 2 ^ e < 2 ^ (e + format.precision) := by
      rw [add_comm, zpow_add₀ two_ne_zero, zpow_natCast]
      exact mul_lt_mul_of_pos_right (by exact_mod_cast short) (by positivity)
    obtain ⟨n, whole⟩ := exists_zpow_div (unit_le (by positivity) least high) m
    exact round_eq_self whole

theorem holds_zpow (precise : 0 < format.precision) {e : ℤ} (least : format.least ≤ e) :
    format.Holds (2 ^ e) :=
  ⟨1, e, Nat.one_lt_two_pow precise.ne', least, by simp⟩

/-- What lies below a multiple of its last bit is not rounded beyond it. -/
theorem round_le {n : ℕ} (le : q / 2 ^ format.unit q ≤ n) :
    format.round q ≤ n * 2 ^ format.unit q := by
  have rounded : (halfEven (q / 2 ^ format.unit q) : ℚ) ≤ n := by
    rw [Nat.cast_le, ← halfEven_natCast n]
    exact halfEven_mono le
  unfold round
  gcongr

theorem le_round {n : ℕ} (le : n ≤ q / 2 ^ format.unit q) :
    n * 2 ^ format.unit q ≤ format.round q := by
  have rounded : (n : ℚ) ≤ halfEven (q / 2 ^ format.unit q) := by
    rw [Nat.cast_le, ← halfEven_natCast n]
    exact halfEven_mono le
  unfold round
  gcongr

theorem round_le_zpow {k : ℤ} (unit : format.unit q ≤ k) (le : q ≤ 2 ^ k) :
    format.round q ≤ 2 ^ k := by
  obtain ⟨n, whole⟩ := exists_zpow_div unit 1
  rw [Nat.cast_one, one_mul, div_eq_iff (by positivity)] at whole
  rw [whole] at le ⊢
  exact round_le ((div_le_iff₀ (by positivity)).mpr le)

theorem zpow_le_round {k : ℤ} (unit : format.unit q ≤ k) (le : 2 ^ k ≤ q) :
    2 ^ k ≤ format.round q := by
  obtain ⟨n, whole⟩ := exists_zpow_div unit 1
  rw [Nat.cast_one, one_mul, div_eq_iff (by positivity)] at whole
  rw [whole] at le ⊢
  exact le_round ((le_div_iff₀ (by positivity)).mpr le)

theorem round_mono (precise : 0 < format.precision) (nonneg : 0 ≤ q) (le : q ≤ r) :
    format.round q ≤ format.round r := by
  rcases nonneg.eq_or_lt with rfl | positive
  · rw [round_zero]
    exact round_nonneg format r
  rcases (unit_mono format positive le).eq_or_lt with same | finer
  · -- Both are multiples of the same bit.
    have scaled : q / 2 ^ format.unit q ≤ r / 2 ^ format.unit q := by gcongr
    have rounded : (halfEven (q / 2 ^ format.unit q) : ℚ) ≤ halfEven (r / 2 ^ format.unit q) :=
      Nat.cast_le.mpr (halfEven_mono scaled)
    unfold round
    rw [← same]
    gcongr
  · -- There is a power of two between them, which neither passes.
    have below := lt_zpow_log q
    have above := zpow_log_le (positive.trans_le le)
    unfold unit at finer
    have apart : Int.log 2 q + 1 ≤ Int.log 2 r := by omega
    have step : (2 : ℚ) ^ (Int.log 2 q + 1) ≤ 2 ^ Int.log 2 r :=
      zpow_le_zpow_right₀ one_le_two apart
    exact (round_le_zpow (by unfold unit; omega) (below.le.trans step)).trans
      (zpow_le_round (by unfold unit; omega) above)

theorem Holds.round_le (precise : 0 < format.precision) (holds : format.Holds r) (nonneg : 0 ≤ q)
    (le : q ≤ r) : format.round q ≤ r :=
  (round_mono precise nonneg le).trans_eq holds.round_eq

theorem Holds.le_round (precise : 0 < format.precision) (holds : format.Holds q) (nonneg : 0 ≤ q)
    (le : q ≤ r) : q ≤ format.round r :=
  holds.round_eq.symm.trans_le (round_mono precise nonneg le)

theorem holds_natCast (precise : 0 < format.precision) (least : format.least ≤ 0) {n : ℕ}
    (short : n ≤ 2 ^ format.precision) : format.Holds n := by
  rcases short.eq_or_lt with rfl | short
  · have power : ((2 ^ format.precision : ℕ) : ℚ) = 2 ^ (format.precision : ℤ) := by
      rw [zpow_natCast]
      push_cast
      rfl
    rw [power]
    exact holds_zpow precise (by omega)
  · exact ⟨n, 0, short, least, by simp⟩

theorem holds_round (precise : 0 < format.precision) (nonneg : 0 ≤ q) :
    format.Holds (format.round q) := by
  rcases nonneg.eq_or_lt with rfl | positive
  · exact ⟨0, format.least, Nat.two_pow_pos _, le_rfl, by simp⟩
  have least : format.least ≤ format.unit q := le_max_left ..
  have short : halfEven (q / 2 ^ format.unit q) ≤ 2 ^ format.precision := by
    rw [← halfEven_natCast (2 ^ format.precision)]
    apply halfEven_mono
    rw [div_le_iff₀ (by positivity), Nat.cast_pow, Nat.cast_ofNat, ← zpow_natCast,
      ← zpow_add₀ two_ne_zero]
    refine (lt_zpow_log q).le.trans (zpow_le_zpow_right₀ one_le_two ?_)
    unfold unit
    omega
  rcases short.eq_or_lt with carry | short
  · -- The carry leaves a power of two.
    have power : format.round q = 2 ^ (format.precision + format.unit q) := by
      rw [round, carry, zpow_add₀ two_ne_zero, zpow_natCast]
      push_cast
      rfl
    rw [power]
    exact holds_zpow precise (by omega)
  · exact ⟨_, _, short, least, rfl⟩

theorem abs_round_sub_le_unit (format : Format) (nonneg : 0 ≤ q) :
    |format.round q - q| ≤ 2 ^ format.unit q / 2 := by
  have bit : (0 : ℚ) < 2 ^ format.unit q := by positivity
  have scaled : format.round q - q =
      (halfEven (q / 2 ^ format.unit q) - q / 2 ^ format.unit q) * 2 ^ format.unit q := by
    rw [round, sub_mul, div_mul_cancel₀ q bit.ne']
  have half := abs_halfEven_sub_le (show 0 ≤ q / 2 ^ format.unit q by positivity)
  rw [scaled, abs_mul, abs_of_pos bit]
  nlinarith

/-- Of a number that fills the precision, rounding changes a small part only. -/
theorem abs_round_sub_le (full : 2 ^ (format.least + format.precision - 1) ≤ q) :
    |format.round q - q| ≤ q / 2 ^ format.precision := by
  have positive : 0 < q := lt_of_lt_of_le (by positivity) full
  have log := (Int.zpow_le_iff_le_log (b := 2) (by decide) positive).mp (by exact_mod_cast full)
  have unit : format.unit q = Int.log 2 q + 1 - format.precision := by
    unfold unit
    omega
  have bit : (2 : ℚ) ^ format.unit q ≤ 2 * (q / 2 ^ format.precision) := by
    rw [unit, zpow_sub₀ two_ne_zero, zpow_add_one₀ two_ne_zero, zpow_natCast]
    have low := zpow_log_le positive
    rw [mul_div_assoc', mul_comm]
    gcongr
  have half := abs_round_sub_le_unit format positive.le
  linarith

/-- A number that is made less by more than a rounding makes of it stays so when it is rounded. -/
theorem round_mul_le (precise : 0 < format.precision) (least : format.least + format.precision ≤ 1)
    {s : ℚ} (one : 1 ≤ q) (nonneg : 0 ≤ s) (less : s ≤ 1 - 1 / 2 ^ format.precision) :
    format.round (format.round q * s) ≤ q := by
  have unit : format.Holds 1 := by simpa using holds_zpow precise (show format.least ≤ 0 by omega)
  have above : 1 ≤ format.round q := unit.le_round precise zero_le_one one
  have product : 0 ≤ format.round q * s := mul_nonneg (zero_le_one.trans above) nonneg
  by_contra passed
  push Not at passed
  -- What lies above `q` among the numbers of the format is at least what `q` is rounded to.
  have back : format.round q ≤ format.round (format.round q * s) :=
    (holds_round precise product).round_le precise (zero_le_one.trans one) passed.le
  have large : 1 < format.round q * s := by
    by_contra small
    exact absurd (unit.round_le precise product (not_lt.mp small)) (not_le.mpr (one.trans_lt passed))
  have full : (2 : ℚ) ^ (format.least + format.precision - 1) ≤ format.round q * s := by
    have power : (2 : ℚ) ^ (format.least + format.precision - 1) ≤ 2 ^ (0 : ℤ) :=
      zpow_le_zpow_right₀ one_le_two (by omega)
    rw [zpow_zero] at power
    linarith
  have near := (abs_le.mp (abs_round_sub_le full)).2
  have bit : (0 : ℚ) < 1 / 2 ^ format.precision := by positivity
  rw [div_eq_mul_one_div] at near
  generalize (1 / 2 ^ format.precision : ℚ) = u at less near bit
  have shrunk : format.round q * s ≤ format.round q * (1 - u) := by gcongr
  have again := mul_le_mul_of_nonneg_right shrunk (show 0 ≤ 1 + u by linarith)
  have lost : 0 < format.round q * (u * u) := by positivity
  linarith

/-- What rounding leaves of a number at least. -/
def kept (format : Format) : ℚ :=
  1 - 1 / 2 ^ format.precision

theorem kept_nonneg (format : Format) : 0 ≤ format.kept := by
  have small : (1 : ℚ) / 2 ^ format.precision ≤ 1 :=
    (div_le_one (by positivity)).mpr (one_le_pow₀ one_le_two)
  exact sub_nonneg.mpr small

/-- The two numbers are no more than `k` roundings apart. -/
structure Near (format : Format) (k : ℕ) (x q : ℚ) : Prop where
  low : format.kept ^ k * q ≤ x
  high : format.kept ^ k * x ≤ q

variable {j k : ℕ} {x y : ℚ}

theorem Near.refl (format : Format) (q : ℚ) : format.Near 0 q q := by
  constructor <;> simp

theorem near_round (full : 2 ^ (format.least + format.precision - 1) ≤ q) :
    format.Near 1 (format.round q) q := by
  have positive : 0 < q := lt_of_lt_of_le (by positivity) full
  have near := abs_le.mp (abs_round_sub_le full)
  have part := kept_nonneg format
  rw [div_eq_mul_one_div] at near
  constructor <;> rw [pow_one] <;> unfold kept at * <;>
    generalize (1 / 2 ^ format.precision : ℚ) = u at near part ⊢
  · linarith
  · have scaled := mul_le_mul_of_nonneg_left near.2 part
    have lost : 0 ≤ q * (u * u) := mul_nonneg positive.le (mul_self_nonneg u)
    linarith

theorem Near.trans (near : format.Near j x y) (near' : format.Near k y q) :
    format.Near (j + k) x q := by
  have first := pow_nonneg (kept_nonneg format) j
  have second := pow_nonneg (kept_nonneg format) k
  constructor
  · calc format.kept ^ (j + k) * q = format.kept ^ j * (format.kept ^ k * q) := by ring
      _ ≤ format.kept ^ j * y := by gcongr; exact near'.low
      _ ≤ x := near.low
  · calc format.kept ^ (j + k) * x = format.kept ^ k * (format.kept ^ j * x) := by ring
      _ ≤ format.kept ^ k * y := by gcongr; exact near.high
      _ ≤ q := near'.high

theorem Near.mul (near : format.Near j x q) (near' : format.Near k y r) (hx : 0 ≤ x) (hq : 0 ≤ q)
    (hy : 0 ≤ y) (hr : 0 ≤ r) : format.Near (j + k) (x * y) (q * r) := by
  have first := pow_nonneg (kept_nonneg format) j
  have second := pow_nonneg (kept_nonneg format) k
  constructor
  · calc format.kept ^ (j + k) * (q * r) = format.kept ^ j * q * (format.kept ^ k * r) := by ring
      _ ≤ x * y := mul_le_mul near.low near'.low (by positivity) hx
  · calc format.kept ^ (j + k) * (x * y) = format.kept ^ j * x * (format.kept ^ k * y) := by ring
      _ ≤ q * r := mul_le_mul near.high near'.high (by positivity) hq

theorem Near.inv (near : format.Near k x q) (hx : 0 < x) (hq : 0 < q) :
    format.Near k x⁻¹ q⁻¹ := by
  constructor
  · rw [← div_eq_mul_inv, div_le_iff₀ hq, inv_mul_eq_div, le_div_iff₀ hx]
    exact near.high
  · rw [← div_eq_mul_inv, div_le_iff₀ hx, inv_mul_eq_div, le_div_iff₀ hq]
    exact near.low

theorem Near.min (near : format.Near k x q) (near' : format.Near k y r) :
    format.Near k (min x y) (min q r) := by
  have part := pow_nonneg (kept_nonneg format) k
  constructor
  · rw [mul_min_of_nonneg _ _ part]
    exact min_le_min near.low near'.low
  · rw [mul_min_of_nonneg _ _ part]
    exact min_le_min near.high near'.high

end Format

end Handset
