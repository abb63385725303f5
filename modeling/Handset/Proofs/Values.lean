import Handset.Proofs.Rounding
import Handset.Proofs.Wholes

/-! Floating-point numbers as rationals. Each operation on numbers without a sign gives what the same
operation on rationals gives, rounded once, as long as that is below the last power of two. -/

namespace Handset

theorem two_zpow (e : ℤ) : (2 : ℚ) ^ e = 2 ^ e.toNat / 2 ^ (-e).toNat := by
  rw [← zpow_natCast, ← zpow_natCast, ← zpow_sub₀ two_ne_zero]
  congr 1
  omega

theorem cast_shiftLeft (n k : ℕ) : ((n <<< k : ℕ) : ℚ) = n * 2 ^ k := by
  rw [Nat.shiftLeft_eq]
  push_cast
  rfl

theorem shiftLeft_div (n d : ℕ) (e : ℤ) :
    ((n <<< e.toNat : ℕ) : ℚ) / (d <<< (-e).toNat : ℕ) = n / d * 2 ^ e := by
  rw [cast_shiftLeft, cast_shiftLeft, two_zpow e]
  ring

theorem log_div {n d : ℕ} (nonzero : n ≠ 0) (positive : 0 < d) :
    Int.log 2 (n / d : ℚ) = leadingExponent n d := by
  have positive' : (0 : ℚ) < d := Nat.cast_pos.mpr positive
  have low : (2 : ℚ) ^ (n.log2 : ℤ) ≤ n := by exact_mod_cast Nat.log2_self_le nonzero
  have high : (n : ℚ) < 2 ^ (n.log2 + 1 : ℤ) := by exact_mod_cast Nat.lt_log2_self
  have low' : (2 : ℚ) ^ (d.log2 : ℤ) ≤ d := by exact_mod_cast Nat.log2_self_le positive.ne'
  have high' : (d : ℚ) < 2 ^ (d.log2 + 1 : ℤ) := by exact_mod_cast Nat.lt_log2_self
  have least : (2 : ℚ) ^ (n.log2 - d.log2 - 1 : ℤ) ≤ n / d := by
    rw [le_div_iff₀ positive']
    calc (2 : ℚ) ^ (n.log2 - d.log2 - 1 : ℤ) * d
        ≤ 2 ^ (n.log2 - d.log2 - 1 : ℤ) * 2 ^ (d.log2 + 1 : ℤ) := by gcongr
      _ = 2 ^ (n.log2 : ℤ) := by
          rw [← zpow_add₀ two_ne_zero]
          congr 1
          omega
      _ ≤ n := low
  have most : (n / d : ℚ) < 2 ^ (n.log2 - d.log2 + 1 : ℤ) := by
    rw [div_lt_iff₀ positive']
    calc (n : ℚ) < 2 ^ (n.log2 + 1 : ℤ) := high
      _ = 2 ^ (n.log2 - d.log2 + 1 : ℤ) * 2 ^ (d.log2 : ℤ) := by
          rw [← zpow_add₀ two_ne_zero]
          congr 1
          omega
      _ ≤ 2 ^ (n.log2 - d.log2 + 1 : ℤ) * d := by gcongr
  unfold leadingExponent
  generalize (n.log2 - d.log2 : ℤ) = e at least most
  have reached : d <<< e.toNat ≤ n <<< (-e).toNat ↔ (2 : ℚ) ^ e ≤ n / d := by
    rw [two_zpow, div_le_div_iff₀ (by positivity) positive', ← Nat.cast_le (α := ℚ),
      cast_shiftLeft, cast_shiftLeft, mul_comm (d : ℚ)]
  dsimp only
  split_ifs with fits
  · exact log_eq (reached.mp fits) most
  · refine log_eq least ?_
    rw [sub_add_cancel]
    exact not_le.mp (mt reached.mpr fits)

theorem log_mul_zpow {q : ℚ} (positive : 0 < q) (k : ℤ) :
    Int.log 2 (q * 2 ^ k) = Int.log 2 q + k := by
  apply log_eq
  · rw [zpow_add₀ two_ne_zero]
    gcongr
    exact zpow_log_le positive
  · rw [add_right_comm, zpow_add₀ two_ne_zero]
    gcongr
    exact lt_zpow_log q

/-- The last power of two of a format: below it no number is too great. -/
def Format.limit (format : Format) : ℚ :=
  2 ^ (format.greatest + format.precision - 1)

namespace Floating

variable {format : Format} {x y : Floating format} {a b : ℚ}

/-- The number stands for `q`, and has no sign. -/
def Means (x : Floating format) (q : ℚ) : Prop :=
  ∃ (m : ℕ) (e : ℤ), x = .finite false m e ∧ m * 2 ^ e = q

theorem Means.nonneg (means : x.Means a) : 0 ≤ a := by
  obtain ⟨m, e, -, rfl⟩ := means
  positivity

theorem means_zero : (zero false : Floating format).Means 0 :=
  ⟨0, format.least, rfl, by simp⟩

/-- The number of a format that is nearest to a rational, or its opposite. -/
def rounded (negative : Bool) (q : ℚ) : Floating format :=
  if q = 0 then zero negative else
    let last := format.unit q
    let m := halfEven (q / 2 ^ last)
    let carry := m = 1 <<< format.precision
    let last := if carry then last + 1 else last
    if format.greatest < last then .infinite negative
    else .finite negative (if carry then m / 2 else m) last

/-- A ratio of integers is rounded as a rational. -/
theorem nearest_eq_rounded (negative : Bool) (n : ℕ) {d : ℕ} (positive : 0 < d) (scale : ℤ) :
    (nearest negative n d scale : Floating format) = rounded negative (n / d * 2 ^ scale) := by
  by_cases zero : n = 0
  · subst zero
    simp [nearest, rounded]
  have quotient : (0 : ℚ) < n / d := by positivity
  have log := log_mul_zpow quotient scale
  rw [log_div zero positive] at log
  have last : max format.least (leadingExponent n d + scale - (format.precision - 1)) =
      format.unit (n / d * 2 ^ scale) := by rw [← log, Format.unit]
  have mantissa : roundHalfEven
      (n <<< (scale - format.unit (n / d * 2 ^ scale)).toNat)
      (d <<< (-(scale - format.unit (n / d * 2 ^ scale))).toNat) =
      halfEven (n / d * 2 ^ scale / 2 ^ format.unit (n / d * 2 ^ scale)) := by
    rw [roundHalfEven_eq _ (Nat.pos_of_ne_zero (shiftLeft_ne_zero positive.ne' _)), shiftLeft_div,
      zpow_sub₀ two_ne_zero, mul_div_assoc]
  have value : (0 : ℚ) < n / d * 2 ^ scale := by positivity
  simp only [nearest, rounded, zero, value.ne', if_false, last, mantissa]

/-- Below the last power of two every number is rounded to a finite one. -/
theorem exists_rounded (whole : format.Whole) (negative : Bool) {q : ℚ} (nonneg : 0 ≤ q)
    (below : q < format.limit) :
    ∃ (m : ℕ) (e : ℤ), (rounded negative q : Floating format) = .finite negative m e ∧
      m * 2 ^ e = format.round q := by
  obtain ⟨precise, low, high⟩ := whole
  rcases nonneg.eq_or_lt with rfl | value
  · exact ⟨0, format.least, by simp [rounded, zero], by simp⟩
  unfold rounded
  rw [if_neg value.ne', Format.round]
  by_cases carry : halfEven (q / 2 ^ format.unit q) = 1 <<< format.precision
  · -- A carry leaves a power of two, which is at most the limit as well.
    rw [Nat.shiftLeft_eq, Nat.one_mul] at carry
    obtain ⟨p, short⟩ := Nat.exists_eq_succ_of_ne_zero precise.ne'
    have near := abs_halfEven_sub_le (show 0 ≤ q / 2 ^ format.unit q by positivity)
    rw [carry, abs_le] at near
    have room : (2 : ℚ) ^ p ≤ q / 2 ^ format.unit q := by
      have one : (1 : ℚ) ≤ 2 ^ p := one_le_pow₀ one_le_two
      have twice : ((2 ^ format.precision : ℕ) : ℚ) = 2 * 2 ^ p := by
        rw [short, pow_succ']
        push_cast
        rfl
      linarith
    rw [le_div_iff₀ (by positivity), ← zpow_natCast, ← zpow_add₀ two_ne_zero] at room
    have finer := (zpow_lt_zpow_iff_right₀ one_lt_two).mp (room.trans_lt below)
    have fits : ¬ format.greatest < format.unit q + 1 := by omega
    simp only [carry, Nat.shiftLeft_eq, Nat.one_mul, if_true, fits, if_false]
    refine ⟨_, _, rfl, ?_⟩
    rw [short, pow_succ, Nat.mul_div_cancel _ two_pos, zpow_add_one₀ two_ne_zero]
    push_cast
    ring
  · have log := (Int.lt_zpow_iff_log_lt (b := 2) (by decide) value).mp (by exact_mod_cast below)
    have fits : ¬ format.greatest < format.unit q := by
      unfold Format.unit
      omega
    simp only [carry, if_false, fits]
    exact ⟨_, _, rfl, rfl⟩

theorem means_nearest (whole : format.Whole) {n d : ℕ} (positive : 0 < d) {scale : ℤ}
    (below : (n / d * 2 ^ scale : ℚ) < format.limit) :
    (nearest false n d scale : Floating format).Means (format.round (n / d * 2 ^ scale)) := by
  rw [nearest_eq_rounded false n positive]
  exact exists_rounded whole false (by positivity) below

theorem means_ofInt (whole : format.Whole) {n : ℕ} (below : (n : ℚ) < format.limit) :
    (ofInt n : Floating format).Means (format.round n) := by
  have sign : decide ((n : ℤ) < 0) = false := by simp
  have below' : ((n : ℕ) / (1 : ℕ) * 2 ^ (0 : ℤ) : ℚ) < format.limit := by simpa using below
  have means := means_nearest whole one_pos below'
  simpa [ofInt, sign] using means

/-- A product is the exact one, rounded once. -/
theorem Means.mul_eq_rounded (hx : x.Means a) (hy : y.Means b) :
    x * y = rounded false (a * b) := by
  obtain ⟨m, e, rfl, rfl⟩ := hx
  obtain ⟨n, e', rfl, rfl⟩ := hy
  have product : ((m * n : ℕ) : ℚ) / (1 : ℕ) * 2 ^ (e + e') = m * 2 ^ e * (n * 2 ^ e') := by
    rw [zpow_add₀ two_ne_zero]
    push_cast
    ring
  rw [← product, ← nearest_eq_rounded false (m * n) one_pos]
  rfl

theorem Means.mul (whole : format.Whole) (hx : x.Means a) (hy : y.Means b)
    (below : a * b < format.limit) : (x * y).Means (format.round (a * b)) := by
  rw [hx.mul_eq_rounded hy]
  exact exists_rounded whole false (mul_nonneg hx.nonneg hy.nonneg) below

/-- So is a quotient. -/
theorem Means.div_eq_rounded (hx : x.Means a) (hy : y.Means b) (positive : 0 < b) :
    x / y = rounded false (a / b) := by
  obtain ⟨m, e, rfl, rfl⟩ := hx
  obtain ⟨n, e', rfl, rfl⟩ := hy
  have nonzero : n ≠ 0 := by
    rintro rfl
    simp at positive
  have quotient : ((m : ℕ) : ℚ) / (n : ℕ) * 2 ^ (e - e') = m * 2 ^ e / (n * 2 ^ e') := by
    rw [zpow_sub₀ two_ne_zero]
    ring
  rw [← quotient, ← nearest_eq_rounded false m (Nat.pos_of_ne_zero nonzero)]
  change (if n = 0 then _ else nearest _ m n (e - e') : Floating format) = _
  rw [if_neg nonzero]
  rfl

theorem Means.div (whole : format.Whole) (hx : x.Means a) (hy : y.Means b) (positive : 0 < b)
    (below : a / b < format.limit) : (x / y).Means (format.round (a / b)) := by
  rw [hx.div_eq_rounded hy positive]
  exact exists_rounded whole false (div_nonneg hx.nonneg hy.nonneg) below

theorem cast_aligned {low e : ℤ} (le : low ≤ e) (m : ℕ) :
    ((m <<< (e - low).toNat : ℕ) : ℚ) * 2 ^ low = m * 2 ^ e := by
  rw [cast_shiftLeft, ← zpow_natCast, Int.toNat_of_nonneg (by omega), mul_assoc,
    ← zpow_add₀ two_ne_zero, sub_add_cancel]

theorem Means.sub (whole : format.Whole) (hx : x.Means a) (hy : y.Means b) (le : b ≤ a)
    (below : a - b < format.limit) : (x - y).Means (format.round (a - b)) := by
  obtain ⟨m, e, rfl, rfl⟩ := hx
  obtain ⟨n, e', rfl, rfl⟩ := hy
  have left := cast_aligned (min_le_left e e') m
  have right := cast_aligned (min_le_right e e') n
  change (let low := min e e'
    let sum := signed false (m <<< (e - low).toNat) + signed true (n <<< (e' - low).toNat)
    if sum = 0 then zero (false && true) else nearest (sum < 0) sum.natAbs 1 low :
      Floating format).Means _
  dsimp only
  rw [← left, ← right] at le below ⊢
  generalize min e e' = low at le below ⊢
  generalize m <<< (e - low).toNat = i at le below ⊢
  generalize n <<< (e' - low).toNat = j at le below ⊢
  have ordered : j ≤ i := by
    exact_mod_cast le_of_mul_le_mul_right le (by positivity)
  obtain ⟨d, rfl⟩ := Nat.exists_eq_add_of_le ordered
  have difference : (((j + d : ℕ) : ℚ) * 2 ^ low - j * 2 ^ low) = (d : ℕ) / (1 : ℕ) * 2 ^ low := by
    push_cast
    ring
  have sum : signed false (j + d) + signed true j = d := by
    simp [signed]
  rw [difference] at below ⊢
  rw [sum]
  split_ifs with zero
  · have none : d = 0 := by omega
    subst none
    simpa using means_zero
  · have sign : decide ((d : ℤ) < 0) = false := by simp
    rw [sign, Int.natAbs_natCast]
    exact means_nearest whole one_pos below

theorem saturate_natCast (n : ℕ) : saturate n = min (n : ℤ) greatestInt := by
  unfold saturate leastInt greatestInt
  omega

theorem floor_shift (m : ℕ) (e : ℤ) :
    ⌊(m : ℚ) * 2 ^ e⌋ = ((m <<< e.toNat) >>> (-e).toNat : ℕ) := by
  rw [Nat.shiftRight_eq_div_pow, Nat.shiftLeft_eq, two_zpow, mul_div_assoc']
  exact_mod_cast Rat.floor_natCast_div_natCast (m * 2 ^ e.toNat) (2 ^ (-e).toNat)

theorem Means.truncate_eq (means : x.Means a) : x.truncate = min ⌊a⌋ greatestInt := by
  obtain ⟨m, e, rfl, rfl⟩ := means
  rw [floor_shift, ← saturate_natCast]
  rfl

theorem Means.round_eq (means : x.Means a) : x.round = min ⌊a + 1 / 2⌋ greatestInt := by
  obtain ⟨m, e, rfl, rfl⟩ := means
  have half : ⌊(m : ℚ) * 2 ^ e + 1 / 2⌋ =
      (((m <<< (e + 1).toNat) >>> (-(e + 1)).toNat + 1) / 2 : ℕ) := by
    have twice : (m : ℚ) * 2 ^ e + 1 / 2 = (m * 2 ^ (e + 1) + 1) / (2 : ℕ) := by
      rw [zpow_add_one₀ two_ne_zero]
      push_cast
      ring
    rw [twice, Int.floor_div_natCast, Int.floor_add_one, floor_shift]
    push_cast
    rfl
  rw [half, ← saturate_natCast]
  rfl

theorem Means.less_iff (hx : x.Means a) (hy : y.Means b) : x.less y = true ↔ a < b := by
  obtain ⟨m, e, rfl, rfl⟩ := hx
  obtain ⟨n, e', rfl, rfl⟩ := hy
  rw [← cast_aligned (min_le_left e e') m, ← cast_aligned (min_le_right e e') n,
    mul_lt_mul_iff_left₀ (by positivity), Nat.cast_lt]
  simp only [less, compare?]
  generalize m <<< (e - min e e').toNat = i
  generalize n <<< (e' - min e e').toNat = j
  simp [signed, Int.compare_eq_lt]

theorem Means.lesser (hx : x.Means a) (hy : y.Means b) : (x.lesser y).Means (min a b) := by
  have order := hy.less_iff hx
  have chosen : x.lesser y = if y.less x then y else x := by
    obtain ⟨m, e, rfl, -⟩ := hx
    obtain ⟨n, e', rfl, -⟩ := hy
    rfl
  rw [chosen]
  split_ifs with less
  · rwa [min_eq_right (order.mp less).le]
  · rwa [min_eq_left (not_lt.mp (mt order.mpr less))]

end Floating

end Handset
