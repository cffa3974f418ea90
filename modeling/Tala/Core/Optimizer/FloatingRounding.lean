import Tala.Core.Optimizer.Floating

/-!
# `Core.Optimizer.FloatingRounding` — exact logarithms and rounding

The logarithms are exact, scaling is multiplication by a power of two, `roundRatioToEven` gives the nearest
integer, and with these `roundToFormat` gives the datum that the standard's rounding to nearest asks for
(`roundToFormat_rounds`).
-/

namespace Tala.Core.Optimizer.Floating

open Tala Tala.Core Tala.Library.BinaryFloat

/-! ## Logarithms -/

theorem integerBitLength_spec {value : Int} (h : 0 < value) :
    ∃ n : Nat, integerBitLength value = n + 1 ∧ 2 ^ n ≤ value ∧ value < 2 ^ (n + 1) := by
  induction value using integerBitLength.induct with
  | case1 value hle => omega
  | case2 value hnot hlt =>
      refine ⟨Nat.log2 value.toNat, ?_, ?_, ?_⟩
      · rw [integerBitLength, if_neg hnot, if_pos hlt]
      · have := Nat.log2_self_le (n := value.toNat) (by omega)
        zify at this
        rwa [Int.toNat_of_nonneg h.le] at this
      · have := Nat.lt_log2_self (n := value.toNat)
        zify at this
        rwa [Int.toNat_of_nonneg h.le] at this
  | case3 value hnot hge ih =>
      obtain ⟨n, hlength, hle, hlt⟩ := ih (by omega)
      refine ⟨n + 64, ?_, ?_, ?_⟩
      · rw [integerBitLength, if_neg hnot, if_neg hge, hlength]
        push_cast
        ring
      · rw [pow_add]
        have := Int.mul_le_of_le_ediv (by norm_num) hle
        exact_mod_cast this
      · rw [show n + 64 + 1 = n + 1 + 64 by ring, pow_add]
        have := Int.lt_mul_of_ediv_lt (by norm_num) hlt
        exact_mod_cast this

section Logarithm

variable {base : Nat} {value : ℚ}

theorem comparePower_lt_iff (base : Nat) (hbase : 0 < base) (top exponent : Int) {bottom : Int}
    (hbottom : 0 < bottom) :
    (if exponent ≥ 0 then compare top (bottom * base ^ exponent.toNat)
      else compare (top * base ^ (-exponent).toNat) bottom) = .lt
      ↔ (top : ℚ) / bottom < (base : ℚ) ^ exponent := by
  have hbase' : (base : ℚ) ≠ 0 := by positivity
  have hbottom' : (0 : ℚ) < bottom := by exact_mod_cast hbottom
  rw [div_lt_iff₀ hbottom']
  split
  · next hnonneg =>
    obtain ⟨n, rfl⟩ := Int.eq_ofNat_of_zero_le hnonneg
    rw [compare_lt_iff_lt, Int.toNat_natCast, zpow_natCast, mul_comm]
    exact_mod_cast Iff.rfl
  · next hneg =>
    obtain ⟨n, hn⟩ := Int.eq_ofNat_of_zero_le (show 0 ≤ -exponent by omega)
    obtain rfl : exponent = -(n : Int) := by omega
    have hpower : (0 : ℚ) < (base : ℚ) ^ n := by positivity
    rw [compare_lt_iff_lt, neg_neg, Int.toNat_natCast, zpow_neg, zpow_natCast, inv_mul_eq_div,
      lt_div_iff₀ hpower]
    exact_mod_cast Iff.rfl

/-- An estimate of the logarithm that may be one too large, corrected by a comparison. -/
theorem floorLog_spec {estimate : Int} (hle : (base : ℚ) ^ (estimate - 1) ≤ value)
    (hlt : value < (base : ℚ) ^ (estimate + 1)) {order : Ordering}
    (horder : order = .lt ↔ value < (base : ℚ) ^ estimate) :
    (base : ℚ) ^ (if order = .lt then estimate - 1 else estimate) ≤ value ∧
      value < (base : ℚ) ^ ((if order = .lt then estimate - 1 else estimate) + 1) := by
  by_cases h : order = .lt
  · rw [if_pos h, sub_add_cancel]
    exact ⟨hle, horder.mp h⟩
  · rw [if_neg h]
    exact ⟨not_lt.mp fun hlt => h (horder.mpr hlt), hlt⟩

/-- The difference of the numbers of digits is such an estimate. -/
theorem estimate_bounds (base : Nat) (hbase : 1 < base) (hvalue : 0 < value) {m n : Nat}
    (hm : (base : Int) ^ m ≤ value.num) (hm' : value.num < (base : Int) ^ (m + 1))
    (hn : (base : Int) ^ n ≤ value.den) (hn' : (value.den : Int) < (base : Int) ^ (n + 1)) :
    (base : ℚ) ^ ((m : Int) - n - 1) ≤ value ∧ value < (base : ℚ) ^ ((m : Int) - n + 1) := by
  have hbase' : (0 : ℚ) < base := by positivity
  have hden : (0 : ℚ) < value.den := by exact_mod_cast value.den_pos
  have hvalue' : value = value.num / value.den := (Rat.num_div_den value).symm
  have hm1 : (base : ℚ) ^ m ≤ value.num := by exact_mod_cast hm
  have hm2 : (value.num : ℚ) < (base : ℚ) ^ (m + 1) := by exact_mod_cast hm'
  have hn1 : (base : ℚ) ^ n ≤ value.den := by exact_mod_cast hn
  have hn2 : (value.den : ℚ) < (base : ℚ) ^ (n + 1) := by exact_mod_cast hn'
  constructor
  · have hsplit : (base : ℚ) ^ ((m : Int) - n - 1) = base ^ m / base ^ (n + 1) := by
      rw [sub_sub, zpow_sub₀ hbase'.ne', zpow_natCast]
      exact_mod_cast rfl
    rw [hsplit, hvalue']
    exact div_le_div₀ (by positivity) hm1 hden hn2.le
  · have hsplit : (base : ℚ) ^ ((m : Int) - n + 1) = base ^ (m + 1) / base ^ n := by
      rw [show (m : Int) - n + 1 = (m + 1 : Nat) - (n : Nat) by push_cast; ring,
        zpow_sub₀ hbase'.ne', zpow_natCast, zpow_natCast]
    rw [hsplit]
    conv_lhs => rw [hvalue']
    exact div_lt_div₀ hm2 hn1 (by positivity) (by positivity)

end Logarithm

variable {value exact : ℚ}

theorem floorLog2_spec (h : 0 < value) : 2 ^ floorLog2 value ≤ value ∧ value < 2 ^ (floorLog2 value + 1) := by
  obtain ⟨m, hm, hm1, hm2⟩ := integerBitLength_spec (Rat.num_pos.mpr h)
  obtain ⟨n, hn, hn1, hn2⟩ := integerBitLength_spec (Int.natCast_pos.mpr value.den_pos)
  have hestimate : integerBitLength value.num - integerBitLength value.den = (m : Int) - n := by
    rw [hm, hn]
    ring
  have hbounds := estimate_bounds 2 (by norm_num) h hm1 hm2 hn1 hn2
  have horder := comparePower_lt_iff 2 (by norm_num) value.num ((m : Int) - n)
    (Int.natCast_pos.mpr value.den_pos)
  rw [Int.cast_natCast, Rat.num_div_den] at horder
  unfold floorLog2
  dsimp only
  rw [hestimate]
  exact_mod_cast floorLog_spec hbounds.1 hbounds.2 horder

/-! ## Rounding -/

theorem scaleByPowerOfTwo_eq (value : ℚ) (exponent : Int) :
    scaleByPowerOfTwo value exponent = value * 2 ^ exponent := by
  have hvalue := Rat.num_div_den value
  have hden : (value.den : ℚ) ≠ 0 := by exact_mod_cast value.den_nz
  unfold scaleByPowerOfTwo
  split
  · next hnonneg =>
    obtain ⟨n, rfl⟩ := Int.eq_ofNat_of_zero_le hnonneg
    rw [Rat.mkRat_eq_div, Int.toNat_natCast, zpow_natCast]
    push_cast
    rw [mul_div_right_comm, hvalue]
  · next hneg =>
    obtain ⟨n, hn⟩ := Int.eq_ofNat_of_zero_le (show 0 ≤ -exponent by omega)
    obtain rfl : exponent = -(n : Int) := by omega
    rw [Rat.mkRat_eq_div, neg_neg, Int.toNat_natCast, zpow_neg, zpow_natCast]
    push_cast
    rw [← div_div, hvalue, div_eq_mul_inv]

/-- Quotient and remainder of the two parts of a ratio. -/
theorem ratio_parts (h : 0 ≤ value) :
    0 ≤ value.num.tdiv value.den ∧ 0 ≤ value.num.tmod value.den ∧
      value.num.tmod value.den < value.den ∧
      value * value.den = value.num.tdiv value.den * value.den + value.num.tmod value.den := by
  have hnum : 0 ≤ value.num := Rat.num_nonneg.mpr h
  have hden : (0 : Int) < value.den := Int.natCast_pos.mpr value.den_pos
  refine ⟨Int.tdiv_nonneg hnum hden.le, Int.tmod_nonneg _ hnum, Int.tmod_lt_of_pos _ hden, ?_⟩
  rw [Rat.mul_den_eq_num]
  have := Int.mul_tdiv_add_tmod value.num value.den
  rw [mul_comm] at this
  exact_mod_cast this.symm

theorem roundRatioToEven_spec (h : 0 ≤ value) : NearestInteger value (roundRatioToEven value) := by
  obtain ⟨hquotient, hremainder, hlt, heq⟩ := ratio_parts h
  have hden : (0 : ℚ) < value.den := by exact_mod_cast value.den_pos
  unfold roundRatioToEven
  dsimp only
  generalize value.num.tdiv value.den = quotient at *
  generalize value.num.tmod value.den = remainder at *
  have hvalue : value = quotient + remainder / value.den := by
    field_simp
    linarith
  have hremainder' : (0 : ℚ) ≤ remainder / value.den := by
    have : (0 : ℚ) ≤ remainder := by exact_mod_cast hremainder
    positivity
  have hone : (remainder : ℚ) / value.den < 1 := by
    rw [div_lt_one hden]
    exact_mod_cast hlt
  have hdown : |value - quotient| = remainder / value.den := by
    rw [abs_of_nonneg] <;> linarith
  have hup : |value - (quotient + 1 : Int)| = 1 - remainder / value.den := by
    push_cast
    rw [abs_of_nonpos] <;> linarith
  have hhalf : ((2 * remainder : Int) : ℚ) / value.den = 2 * (remainder / value.den) := by
    push_cast
    ring
  rcases hcompare : compare (2 * remainder) (value.den : Int) with _ | _ | _ <;> dsimp only
  · have hless : ((2 * remainder : Int) : ℚ) / value.den < 1 := by
      rw [div_lt_one hden]
      exact_mod_cast compare_lt_iff_lt.mp hcompare
    unfold NearestInteger
    rw [hdown]
    exact ⟨by linarith, fun htie => by linarith⟩
  · have htie : ((2 * remainder : Int) : ℚ) / value.den = 1 := by
      rw [div_eq_one_iff_eq hden.ne']
      exact_mod_cast compare_eq_iff_eq.mp hcompare
    unfold NearestInteger
    split
    · next heven =>
      rw [hdown]
      exact ⟨by linarith, fun _ => Int.even_iff.mpr heven⟩
    · next hodd =>
      rw [hup]
      exact ⟨by linarith, fun _ => Int.even_iff.mpr (by omega)⟩
  · have hmore : 1 < ((2 * remainder : Int) : ℚ) / value.den := by
      rw [one_lt_div hden]
      exact_mod_cast compare_gt_iff_gt.mp hcompare
    unfold NearestInteger
    rw [hup]
    exact ⟨by linarith, fun htie => by linarith⟩

theorem roundRatioToEven_nonneg (h : 0 ≤ value) : 0 ≤ roundRatioToEven value := by
  have hbounds := abs_le.mp (roundRatioToEven_spec h).1
  have : (-1 : ℚ) < (roundRatioToEven value : ℚ) := by linarith [hbounds.2]
  have : (-1 : Int) < roundRatioToEven value := by exact_mod_cast this
  omega

theorem minimumSubnormalExponent_eq (format : BinaryFormat) :
    minimumSubnormalExponent format = format.leastExponent := rfl

/-- Scaling a magnitude and rounding it gives the nearest magnitude of the format. -/
theorem nearest_scaled {format : BinaryFormat} (hexact : 0 ≤ exact) {quantum : Int}
    (hquantum : format.leastExponent ≤ quantum)
    (hfull : quantum = format.leastExponent ∨ 2 ^ (quantum + (format.precision - 1)) ≤ exact)
    (hsmall : exact < 2 ^ (quantum + format.precision)) :
    format.Nearest exact (roundRatioToEven (scaleByPowerOfTwo exact (-quantum)) * 2 ^ quantum) := by
  have hscaled : scaleByPowerOfTwo exact (-quantum) = exact / 2 ^ quantum := by
    rw [scaleByPowerOfTwo_eq, zpow_neg, div_eq_mul_inv]
  have hnonneg : 0 ≤ exact / 2 ^ quantum := div_nonneg hexact (two_zpow_pos quantum).le
  have hspec := roundRatioToEven_spec hnonneg
  obtain ⟨rounded, hrounded⟩ := Int.eq_ofNat_of_zero_le (roundRatioToEven_nonneg hnonneg)
  rw [hrounded] at hspec
  rw [hscaled, hrounded, Int.cast_natCast]
  exact nearest_of_integer hexact hquantum hfull hsmall hspec

theorem two_zpow_le_overflow (format : BinaryFormat) : 2 ^ format.maximumExponent ≤ format.overflow := by
  have hprecise := format.precise
  have hle : (2 : ℚ) ^ (format.maximumExponent - format.precision) ≤ 2 ^ format.maximumExponent :=
    zpow_le_zpow_right₀ (by norm_num) (by omega)
  unfold Format.overflow Format.ceiling
  rw [zpow_add_one₀ (by norm_num)]
  linarith

theorem overflow_pos (format : BinaryFormat) : 0 < format.overflow :=
  lt_of_lt_of_le (two_zpow_pos _) (two_zpow_le_overflow format)

theorem rounds_zero (format : BinaryFormat) (negative : Bool) : format.Rounds negative 0 (.finite negative 0) :=
  ⟨rfl, overflow_pos format, nearest_self (evenGrid_zero format).grid⟩

/-- **`roundToFormat` rounds to nearest, ties to even**, with gradual underflow and overflow. -/
theorem roundToFormat_rounds (format : BinaryFormat) (negative : Bool) (h : 0 ≤ exact) :
    format.Rounds negative exact (roundToFormat format negative exact) := by
  have hordered := format.ordered
  have hprecise := format.precise
  unfold roundToFormat
  dsimp only
  split
  · next hzero =>
    rw [hzero]
    exact rounds_zero format negative
  next hne =>
  obtain ⟨hle, hlt⟩ := floorLog2_spec (lt_of_le_of_ne h (Ne.symm hne))
  generalize floorLog2 exact = binaryExponent at *
  split
  · -- below the least normal magnitude the quantum stays the least one
    next hsubnormal =>
    rw [minimumSubnormalExponent_eq]
    have hbelow : exact < 2 ^ format.minimumExponent :=
      lt_of_lt_of_le hlt (zpow_le_zpow_right₀ (by norm_num) (by omega))
    have hsmall : exact < 2 ^ (format.leastExponent + format.precision) := by
      refine lt_of_lt_of_le hbelow (zpow_le_zpow_right₀ (by norm_num) ?_)
      unfold Format.leastExponent
      omega
    have hnearest := nearest_scaled h le_rfl (Or.inl rfl) hsmall
    have hrounds := rounds_of_nearest hnearest negative
    have hfinite : exact < format.overflow :=
      lt_of_lt_of_le hbelow (le_trans (zpow_le_zpow_right₀ (by norm_num) hordered)
        (two_zpow_le_overflow format))
    rw [if_neg (fun hceiling => absurd ((ceiling_le_iff hnearest).mp hceiling) (not_le.mpr hfinite))]
      at hrounds
    generalize roundRatioToEven (scaleByPowerOfTwo exact (-format.leastExponent)) = rounded at *
    split
    · next hzero =>
      rw [hzero, Int.cast_zero, zero_mul] at hrounds
      exact hrounds
    · rw [scaleByPowerOfTwo_eq, Rat.mkRat_eq_div, Nat.cast_one, div_one]
      exact hrounds
  · next hnormal =>
    obtain ⟨quantum, hquantum⟩ : ∃ quantum, quantum = binaryExponent - ((format.precision : Int) - 1) :=
      ⟨_, rfl⟩
    have hfull : (2 : ℚ) ^ (quantum + (format.precision - 1)) ≤ exact := by
      rw [show quantum + ((format.precision : Int) - 1) = binaryExponent by omega]
      exact hle
    have hsmall : exact < 2 ^ (quantum + format.precision) := by
      rw [show quantum + (format.precision : Int) = binaryExponent + 1 by omega]
      exact hlt
    have hleast : format.leastExponent ≤ quantum := by
      unfold Format.leastExponent
      omega
    have hnearest := nearest_scaled h hleast (Or.inr hfull) hsmall
    have hrounds := rounds_of_nearest hnearest negative
    have hpositive := two_zpow_pos quantum
    rw [← hquantum]
    obtain ⟨rounded, hrounded⟩ :
        ∃ rounded, rounded = roundRatioToEven (scaleByPowerOfTwo exact (-quantum)) := ⟨_, rfl⟩
    rw [← hrounded] at hrounds hnearest ⊢
    have hnext : (2 : ℚ) ^ (binaryExponent + 1) = ((2 ^ format.precision : Int) : ℚ) * 2 ^ quantum := by
      push_cast
      rw [← zpow_natCast, ← zpow_add₀ (by norm_num)]
      congr 1
      omega
    have hnextgrid : format.Grid (2 ^ (binaryExponent + 1)) := by
      refine (evenGrid_two_zpow ?_).grid
      omega
    have hfinish : ∀ (finalExponent finalSignificand : Int),
        (finalSignificand : ℚ) * 2 ^ (finalExponent - ((format.precision : Int) - 1))
          = rounded * 2 ^ quantum →
        (finalExponent > format.maximumExponent ↔ format.ceiling ≤ rounded * 2 ^ quantum) →
        format.Rounds negative exact
          (if finalExponent > format.maximumExponent then .infinity negative
            else .finite negative (scaleByPowerOfTwo (mkRat finalSignificand 1)
              (finalExponent - (format.precision - 1)))) := by
      intro finalExponent finalSignificand hvalue hceiling
      rw [scaleByPowerOfTwo_eq, Rat.mkRat_eq_div, Nat.cast_one, div_one, hvalue]
      simp only [hceiling]
      exact hrounds
    have hpowers : ∀ a b : Int, (2 : ℚ) ^ a ≤ 2 ^ b ↔ a ≤ b :=
      fun a b => zpow_le_zpow_iff_right₀ (by norm_num)
    split
    · -- the significand is carried into the exponent
      next hcarry =>
      have hvalue : (rounded : ℚ) * 2 ^ quantum = 2 ^ (binaryExponent + 1) := by rw [hnext, hcarry]
      refine hfinish _ _ ?_ ?_
      · have hhalf : rounded.tdiv 2 = 2 ^ (format.precision - 1) := by
          rw [hcarry, show format.precision = format.precision - 1 + 1 by omega, pow_succ,
            Int.mul_tdiv_cancel _ (by norm_num), Nat.add_sub_cancel]
        rw [hvalue, hhalf]
        push_cast
        rw [← zpow_natCast, ← zpow_add₀ (by norm_num)]
        congr 1
        omega
      · rw [hvalue]
        unfold Format.ceiling
        rw [hpowers]
        omega
    · next hstay =>
      refine hfinish _ _ (by rw [hquantum]) ?_
      -- the nearest magnitude does not pass the next power of two
      have hle' : (rounded : ℚ) * 2 ^ quantum ≤ 2 ^ (binaryExponent + 1) := by
        by_contra hnot
        have hcloser := hnearest.closest _ hnextgrid
        rw [abs_of_neg (by linarith), abs_of_neg (by linarith)] at hcloser
        linarith
      have hlt' : (rounded : ℚ) * 2 ^ quantum < 2 ^ (binaryExponent + 1) := by
        refine lt_of_le_of_ne hle' fun heq => hstay ?_
        rw [hnext] at heq
        exact_mod_cast mul_right_cancel₀ hpositive.ne' heq
      constructor
      · intro hgreater
        rw [ceiling_le_iff hnearest]
        refine le_trans ?_ hle
        refine le_trans ?_ ((hpowers (format.maximumExponent + 1) _).mpr (by omega))
        have := two_zpow_pos (format.maximumExponent - format.precision)
        unfold Format.overflow Format.ceiling
        linarith
      · intro hceiling
        by_contra hnot
        have hpower := (hpowers (binaryExponent + 1) (format.maximumExponent + 1)).mpr (by omega)
        unfold Format.ceiling at hceiling
        linarith

end Tala.Core.Optimizer.Floating
