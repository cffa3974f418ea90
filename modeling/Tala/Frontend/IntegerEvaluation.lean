import Mathlib.Algebra.Order.Floor.Semiring
import Mathlib.Algebra.Order.Ring.Abs
import Mathlib.Algebra.Order.Ring.Int
import Mathlib.Data.Int.Bitwise
import Mathlib.Data.Nat.Size
import Mathlib.Data.Rat.Floor
import Mathlib.Tactic.Linarith

/-!
# `Frontend.IntegerEvaluation` — exact integers under a bound

Compile-time integers are unbounded, and every operation refuses a result of more than 65536 bits. It
refuses early: a product by the bit lengths of its factors, a power as soon as a square of the factor is
too wide, a shift by the width it would have. `Exactly` says that an outcome is the exact result where
there is one strictly inside the bound and an error otherwise; each operation meets it, so no early
refusal loses a result that fits.
-/

namespace Tala.Frontend

inductive CompileTimeIntegerError
  | compileTimeIntegerLimitExceeded
  | compileTimeNegativeExponent
  deriving DecidableEq, Repr

/-! ## Evaluation -/

def maximumCompileTimeIntegerBits : Nat := 65536

def maximumCompileTimeMagnitude : Int := (1 : Int) <<< maximumCompileTimeIntegerBits

def checkCompileTimeInteger (value : Int) : Except CompileTimeIntegerError Int :=
  if value ≤ -maximumCompileTimeMagnitude ∨ value ≥ maximumCompileTimeMagnitude then
    .error .compileTimeIntegerLimitExceeded
  else .ok value

def countLeadingZeros (limb : UInt64) : Nat := limb.toBitVec.clz.toNat

/-- The width of a positive value, one limb of 64 bits after the other. -/
def integerBitLength (value : Int) : Nat :=
  if value ≤ 0 then 0
  else if value ≤ UInt64.size - 1 then 64 - countLeadingZeros (UInt64.ofNat value.toNat)
  else 64 + integerBitLength (value >>> (64 : Nat))
termination_by value.toNat
decreasing_by
  rw [Int.shiftRight_eq_div_pow]
  omega

def multiplyCompileTimeIntegers (left right : Int) : Except CompileTimeIntegerError Int := do
  let boundedLeft ← checkCompileTimeInteger left
  let boundedRight ← checkCompileTimeInteger right
  if boundedLeft = 0 ∨ boundedRight = 0 then .ok 0
  else if integerBitLength |boundedLeft| + integerBitLength |boundedRight| - 1
      > maximumCompileTimeIntegerBits then
    .error .compileTimeIntegerLimitExceeded
  else checkCompileTimeInteger (boundedLeft * boundedRight)

def powerLoop (accumulated factor : Int) (remaining : Nat) : Except CompileTimeIntegerError Int :=
  if remaining = 0 then checkCompileTimeInteger accumulated
  else do
    let nextAccumulated ←
      if remaining % 2 = 1 then multiplyCompileTimeIntegers accumulated factor else .ok accumulated
    let nextRemaining := remaining / 2
    if nextRemaining = 0 then checkCompileTimeInteger nextAccumulated
    else
      let squaredFactor ← multiplyCompileTimeIntegers factor factor
      powerLoop nextAccumulated squaredFactor nextRemaining
termination_by remaining

def evaluateCompileTimePower (base exponentValue : Int) : Except CompileTimeIntegerError Int :=
  if exponentValue < 0 then .error .compileTimeNegativeExponent
  else do
    let boundedBase ← checkCompileTimeInteger base
    if boundedBase = 0 then .ok (if exponentValue = 0 then 1 else 0)
    else if boundedBase = 1 then .ok 1
    else if boundedBase = -1 then .ok (if exponentValue % 2 = 0 then 1 else -1)
    else powerLoop 1 boundedBase exponentValue.toNat

def checkedShiftAmount (amount : Int) : Except CompileTimeIntegerError Nat :=
  if amount < 0 ∨ amount > maximumCompileTimeIntegerBits then .error .compileTimeIntegerLimitExceeded
  else .ok amount.toNat

mutual

def evaluateCompileTimeShiftLeft (value amount : Int) : Except CompileTimeIntegerError Int := do
  let boundedValue ← checkCompileTimeInteger value
  if amount < 0 then evaluateCompileTimeShiftRight boundedValue (-amount)
  else if boundedValue = 0 then .ok 0
  else
    if integerBitLength |boundedValue| + amount > maximumCompileTimeIntegerBits then
      .error .compileTimeIntegerLimitExceeded
    let boundedAmount ← checkedShiftAmount amount
    checkCompileTimeInteger (boundedValue <<< boundedAmount)
termination_by if amount < 0 then 1 else 0
decreasing_by
  simp_all
  omega

/-- A right shift fills with the sign. -/
def evaluateCompileTimeShiftRight (value amount : Int) : Except CompileTimeIntegerError Int := do
  let boundedValue ← checkCompileTimeInteger value
  if amount < 0 then evaluateCompileTimeShiftLeft boundedValue (-amount)
  else if amount ≥ maximumCompileTimeIntegerBits then .ok (if boundedValue < 0 then -1 else 0)
  else
    let boundedAmount ← checkedShiftAmount amount
    checkCompileTimeInteger (boundedValue >>> boundedAmount)
termination_by if amount < 0 then 1 else 0
decreasing_by
  simp_all
  omega

end

/-! ## The bound -/

def WithinBound (value : Int) : Prop := |value| < maximumCompileTimeMagnitude

theorem maximumCompileTimeMagnitude_eq :
    maximumCompileTimeMagnitude = ((2 ^ maximumCompileTimeIntegerBits : Nat) : Int) := by
  show (1 : Int) <<< maximumCompileTimeIntegerBits = _
  rw [Int.shiftLeft_eq, one_mul]
  push_cast
  rfl

variable {value : Int}

theorem withinBound_iff : WithinBound value ↔ value.natAbs < 2 ^ maximumCompileTimeIntegerBits := by
  show |value| < _ ↔ _
  rw [maximumCompileTimeMagnitude_eq, Int.abs_eq_natAbs, Int.ofNat_lt]

/-- The values of at most 16 bits are far inside the bound. -/
theorem withinBound_of_small (h : value.natAbs < 2 ^ 16) : WithinBound value := by
  rw [withinBound_iff]
  exact Nat.lt_of_lt_of_le h (Nat.pow_le_pow_right (by decide) (by decide))

theorem withinBound_of_natAbs_le {other : Int} (h : WithinBound value)
    (hle : other.natAbs ≤ value.natAbs) : WithinBound other := by
  rw [withinBound_iff] at h ⊢
  omega

variable {factor accumulated : Int} {error : CompileTimeIntegerError} {amount : Nat}

/-- A value that is too wide stays too wide under multiplication. -/
theorem not_withinBound_mul (h : ¬WithinBound value) (hfactor : factor ≠ 0) :
    ¬WithinBound (value * factor) := by
  intro hproduct
  refine h (withinBound_of_natAbs_le hproduct ?_)
  rw [Int.natAbs_mul]
  exact Nat.le_mul_of_pos_right _ (Int.natAbs_pos.mpr hfactor)

/-! ## Outcomes -/

/-- The outcome is the exact result where there is one strictly inside the bound, an error otherwise. -/
def Exactly (outcome : Except CompileTimeIntegerError Int) (exact : Option Int) : Prop :=
  ∀ result, outcome = .ok result ↔ exact = some result ∧ WithinBound result

theorem exactly_ok (h : WithinBound value) : Exactly (.ok value) (some value) := by
  intro result
  constructor
  · intro hok
    cases hok
    exact ⟨rfl, h⟩
  · rintro ⟨hsome, -⟩
    cases hsome
    rfl

theorem exactly_error {exact : Option Int}
    (h : ∀ value, exact = some value → ¬WithinBound value) : Exactly (.error error) exact := by
  intro result
  constructor
  · intro hok
    cases hok
  · rintro ⟨hsome, hwithin⟩
    exact absurd hwithin (h result hsome)

theorem exactly_error_wide (h : ¬WithinBound value) : Exactly (.error error) (some value) := by
  apply exactly_error
  intro other hsome
  cases hsome
  exact h

theorem checkCompileTimeInteger_within (h : WithinBound value) : checkCompileTimeInteger value = .ok value := by
  have hbounds := abs_lt.mp h
  show (if value ≤ -maximumCompileTimeMagnitude ∨ value ≥ maximumCompileTimeMagnitude then _ else _) = _
  rw [if_neg (by omega)]

theorem checkCompileTimeInteger_exactly (value : Int) :
    Exactly (checkCompileTimeInteger value) (some value) := by
  by_cases h : WithinBound value
  · rw [checkCompileTimeInteger_within h]
    exact exactly_ok h
  · have hbounds : ¬(-maximumCompileTimeMagnitude < value ∧ value < maximumCompileTimeMagnitude) :=
      fun hboth => h (abs_lt.mpr hboth)
    have hrefused : checkCompileTimeInteger value = .error .compileTimeIntegerLimitExceeded := if_pos (by omega)
    rw [hrefused]
    exact exactly_error_wide h

/-- An outcome about an exact value is that value, or an error because it is too wide. -/
theorem Exactly.cases {outcome : Except CompileTimeIntegerError Int} (h : Exactly outcome (some value)) :
    (outcome = .ok value ∧ WithinBound value) ∨ ∃ error, outcome = .error error ∧ ¬WithinBound value := by
  by_cases hwithin : WithinBound value
  · exact .inl ⟨(h value).mpr ⟨rfl, hwithin⟩, hwithin⟩
  · cases outcome with
    | ok result =>
        obtain ⟨hsome, hresult⟩ := (h result).mp rfl
        cases hsome
        exact absurd hresult hwithin
    | error error => exact .inr ⟨error, rfl, hwithin⟩

/-! ## Widths -/

theorem size_eq_of_bounds {value width : Nat} (hlower : 2 ^ width ≤ value) (hupper : value < 2 ^ (width + 1)) :
    value.size = width + 1 :=
  Nat.le_antisymm (Nat.size_le.mpr hupper) (Nat.lt_size.mpr hlower)

/-- A limb is as wide as what its leading zeros leave. -/
theorem size_limb {limb : UInt64} (h : limb.toNat ≠ 0) : 64 - countLeadingZeros limb = limb.toNat.size := by
  have hne : limb.toBitVec ≠ 0#64 := by
    intro hzero
    apply h
    show limb.toBitVec.toNat = 0
    rw [hzero]
    rfl
  have hlower := BitVec.two_pow_sub_clz_le_toNat_of_ne_zero (by decide) hne
  have hupper := BitVec.toNat_lt_two_pow_sub_clz (x := limb.toBitVec)
  have hless : (limb.toBitVec.clz).toNat < 64 := by
    have := BitVec.clz_lt_iff_ne_zero.mpr hne
    rw [BitVec.lt_def] at this
    exact this
  show 64 - limb.toBitVec.clz.toNat = limb.toBitVec.toNat.size
  have hwidth : 64 - limb.toBitVec.clz.toNat = 64 - 1 - limb.toBitVec.clz.toNat + 1 := by omega
  rw [hwidth] at hupper ⊢
  exact (size_eq_of_bounds hlower hupper).symm

/-- Dropping a limb drops 64 bits of the width. -/
theorem size_drop_limb {value : Nat} (h : UInt64.size ≤ value) : value.size = 64 + (value / 2 ^ 64).size := by
  have hpositive : 0 < value / 2 ^ 64 := Nat.div_pos h (Nat.two_pow_pos 64)
  obtain ⟨width, hwidth⟩ : ∃ width, (value / 2 ^ 64).size = width + 1 :=
    Nat.exists_eq_succ_of_ne_zero (Nat.size_pos.mpr hpositive).ne'
  have hlower : 2 ^ width ≤ value / 2 ^ 64 := Nat.lt_size.mp (by omega)
  have hupper : value / 2 ^ 64 < 2 ^ (width + 1) := Nat.size_le.mp (by omega)
  rw [hwidth, show 64 + (width + 1) = 64 + width + 1 by omega]
  apply size_eq_of_bounds
  · rw [Nat.le_div_iff_mul_le (Nat.two_pow_pos 64)] at hlower
    rw [Nat.add_comm, Nat.pow_add]
    exact hlower
  · rw [Nat.div_lt_iff_lt_mul (Nat.two_pow_pos 64)] at hupper
    rw [show 64 + width + 1 = width + 1 + 64 by omega, Nat.pow_add]
    exact hupper

/-- **The limbs add up to the width**, at the limb boundaries too. -/
theorem integerBitLength_eq_size (value : Int) : integerBitLength value = value.toNat.size := by
  induction value using integerBitLength.induct with
  | case1 value hnonpos =>
      rw [integerBitLength, if_pos hnonpos, Int.toNat_of_nonpos hnonpos, Nat.size_zero]
  | case2 value hnonpos hlimb =>
      have hsize : value.toNat < UInt64.size := by omega
      have hlimb' : (UInt64.ofNat value.toNat).toNat = value.toNat := UInt64.toNat_ofNat_of_lt' hsize
      rw [integerBitLength, if_neg hnonpos, if_pos hlimb, size_limb (by omega), hlimb']
  | case3 value hnonpos hlimb ih =>
      have hdrop : (value >>> (64 : Nat)).toNat = value.toNat / 2 ^ 64 := by
        rw [Int.shiftRight_eq_div_pow]
        omega
      rw [integerBitLength, if_neg hnonpos, if_neg hlimb, ih, hdrop]
      exact (size_drop_limb (by omega)).symm

/-- The least magnitude of a width. -/
theorem two_pow_le_natAbs (h : value ≠ 0) :
    0 < integerBitLength |value| ∧ 2 ^ (integerBitLength |value| - 1) ≤ value.natAbs := by
  have hnat : |value|.toNat = value.natAbs := by
    rw [Int.abs_eq_natAbs, Int.toNat_natCast]
  rw [integerBitLength_eq_size, hnat]
  have hpositive : 0 < value.natAbs.size := Nat.size_pos.mpr (Int.natAbs_pos.mpr h)
  exact ⟨hpositive, Nat.lt_size.mp (by omega)⟩

/-! ## Products -/

theorem multiplyCompileTimeIntegers_exactly {left right : Int} (hleft : WithinBound left)
    (hright : WithinBound right) :
    Exactly (multiplyCompileTimeIntegers left right) (some (left * right)) := by
  unfold multiplyCompileTimeIntegers
  rw [checkCompileTimeInteger_within hleft, checkCompileTimeInteger_within hright]
  show Exactly (if left = 0 ∨ right = 0 then _ else _) _
  by_cases hzero : left = 0 ∨ right = 0
  · rw [if_pos hzero, Int.mul_eq_zero.mpr hzero]
    exact exactly_ok (withinBound_of_small (by decide))
  · rw [if_neg hzero]
    obtain ⟨hleft', hright'⟩ := not_or.mp hzero
    by_cases hwide : integerBitLength |left| + integerBitLength |right| - 1 > maximumCompileTimeIntegerBits
    · rw [if_pos hwide]
      -- the product of the least magnitudes of the two widths reaches the bound already
      obtain ⟨hleftPos, hleftLow⟩ := two_pow_le_natAbs hleft'
      obtain ⟨hrightPos, hrightLow⟩ := two_pow_le_natAbs hright'
      apply exactly_error_wide
      rw [withinBound_iff, Int.natAbs_mul, not_lt]
      calc 2 ^ maximumCompileTimeIntegerBits
          ≤ 2 ^ (integerBitLength |left| - 1 + (integerBitLength |right| - 1)) :=
            Nat.pow_le_pow_right (by decide) (by omega)
        _ = 2 ^ (integerBitLength |left| - 1) * 2 ^ (integerBitLength |right| - 1) := Nat.pow_add _ _ _
        _ ≤ left.natAbs * right.natAbs := Nat.mul_le_mul hleftLow hrightLow
    · rw [if_neg hwide]
      exact checkCompileTimeInteger_exactly _

/-! ## Powers -/

/-- The rest of the loop after a product: a square of the factor divides the power that is left, so that
where the square is too wide the power is. -/
theorem powerLoop_square {half : Nat} (haccumulated : accumulated ≠ 0)
    (hfactor : factor ≠ 0) (hwithin : WithinBound factor) (hhalf : half ≠ 0)
    (hloop : WithinBound (factor * factor) →
      Exactly (powerLoop accumulated (factor * factor) half) (some (accumulated * (factor * factor) ^ half))) :
    Exactly (do
        let squaredFactor ← multiplyCompileTimeIntegers factor factor
        powerLoop accumulated squaredFactor half)
      (some (accumulated * (factor * factor) ^ half)) := by
  rcases (multiplyCompileTimeIntegers_exactly hwithin hwithin).cases with
    ⟨hsquare, hfits⟩ | ⟨error, hsquare, hwide⟩
  · rw [hsquare]
    exact hloop hfits
  · rw [hsquare]
    obtain ⟨rest, rfl⟩ := Nat.exists_eq_succ_of_ne_zero hhalf
    have hsplit : accumulated * (factor * factor) ^ (rest + 1)
        = factor * factor * ((factor * factor) ^ rest * accumulated) := by
      rw [Int.pow_succ']
      ring
    rw [hsplit]
    apply exactly_error_wide
    apply not_withinBound_mul hwide
    exact mul_ne_zero (pow_ne_zero _ (mul_ne_zero hfactor hfactor)) haccumulated

/-- **The power loop is exact.** What it has accumulated and the factor divide the power and are not
zero; neither can be too wide while the power fits. -/
theorem powerLoop_exactly (remaining : Nat) (haccumulated : accumulated ≠ 0)
    (hwithin : WithinBound accumulated) (hfactor : factor ≠ 0) (hfactorWithin : WithinBound factor) :
    Exactly (powerLoop accumulated factor remaining) (some (accumulated * factor ^ remaining)) := by
  induction remaining using Nat.strong_induction_on generalizing accumulated factor with
  | h remaining ih =>
      rw [powerLoop]
      by_cases hend : remaining = 0
      · rw [if_pos hend, hend, Int.pow_zero, Int.mul_one]
        exact checkCompileTimeInteger_exactly _
      · rw [if_neg hend]
        have hless : remaining / 2 < remaining := Nat.div_lt_self (by omega) (by decide)
        have hsquare : factor * factor ≠ 0 := mul_ne_zero hfactor hfactor
        rcases Nat.mod_two_eq_zero_or_one remaining with heven | hodd
        · have hpower : factor ^ remaining = (factor * factor) ^ (remaining / 2) := by
            rw [← pow_two, ← pow_mul]
            congr 1
            omega
          have hhalf : remaining / 2 ≠ 0 := by omega
          rw [if_neg (by omega), hpower]
          show Exactly (if remaining / 2 = 0 then _ else _) _
          rw [if_neg hhalf]
          exact powerLoop_square haccumulated hfactor hfactorWithin hhalf
            fun hfits => ih _ hless haccumulated hwithin hsquare hfits
        · have hpower : accumulated * factor ^ remaining
              = accumulated * factor * (factor * factor) ^ (remaining / 2) := by
            rw [Int.mul_assoc, ← pow_two factor, ← pow_mul, ← pow_succ']
            congr 2
            omega
          rw [if_pos hodd, hpower]
          rcases (multiplyCompileTimeIntegers_exactly hwithin hfactorWithin).cases with
            ⟨hproduct, hfits⟩ | ⟨error, hproduct, hwide⟩
          · rw [hproduct]
            show Exactly (if remaining / 2 = 0 then _ else _) _
            by_cases hhalf : remaining / 2 = 0
            · rw [if_pos hhalf, hhalf, Int.pow_zero, Int.mul_one]
              exact checkCompileTimeInteger_exactly _
            · rw [if_neg hhalf]
              have hnext : accumulated * factor ≠ 0 := mul_ne_zero haccumulated hfactor
              exact powerLoop_square hnext hfactor hfactorWithin hhalf
                fun hfits' => ih _ hless hnext hfits hsquare hfits'
          · rw [hproduct]
            exact exactly_error_wide (not_withinBound_mul hwide (pow_ne_zero _ hsquare))

/-- The power of an integer is an integer where the exponent is not negative. -/
def integerPower (base exponentValue : Int) : Option Int :=
  if 0 ≤ exponentValue then some (base ^ exponentValue.toNat) else none

theorem minus_one_pow (exponent : Nat) : (-1 : Int) ^ exponent = if (exponent : Int) % 2 = 0 then 1 else -1 := by
  by_cases heven : (exponent : Int) % 2 = 0
  · rw [if_pos heven]
    exact Even.neg_one_pow (Nat.even_iff.mpr (by omega))
  · rw [if_neg heven]
    exact Odd.neg_one_pow (Nat.odd_iff.mpr (by omega))

theorem evaluateCompileTimePower_exactly {base : Int} (hbase : WithinBound base) (exponentValue : Int) :
    Exactly (evaluateCompileTimePower base exponentValue) (integerPower base exponentValue) := by
  unfold evaluateCompileTimePower integerPower
  by_cases hneg : exponentValue < 0
  · rw [if_pos hneg, if_neg (by omega)]
    exact exactly_error fun value hnone => by cases hnone
  · have hnonneg : 0 ≤ exponentValue := by omega
    rw [if_neg hneg, if_pos hnonneg, checkCompileTimeInteger_within hbase]
    show Exactly (if base = 0 then _ else _) _
    obtain ⟨exponent, rfl⟩ := Int.eq_ofNat_of_zero_le hnonneg
    rw [Int.toNat_natCast]
    by_cases hzero : base = 0
    · subst hzero
      rw [if_pos rfl, zero_pow_eq]
      simp only [Int.natCast_eq_zero]
      by_cases hexponent : exponent = 0
      · simp only [hexponent, if_true]
        exact exactly_ok (withinBound_of_small (by decide))
      · simp only [hexponent, if_false]
        exact exactly_ok (withinBound_of_small (by decide))
    rw [if_neg hzero]
    by_cases hone : base = 1
    · subst hone
      rw [if_pos rfl, one_pow]
      exact exactly_ok (withinBound_of_small (by decide))
    rw [if_neg hone]
    by_cases hminus : base = -1
    · subst hminus
      rw [if_pos rfl, minus_one_pow]
      apply exactly_ok
      apply withinBound_of_small
      split <;> decide
    · rw [if_neg hminus]
      have hloop := powerLoop_exactly exponent one_ne_zero
        (withinBound_of_small (by decide)) hzero hbase
      rw [Int.one_mul] at hloop
      exact hloop

/-! ## Shifts -/

/-- The value times a power of two, rounded to the integer below it. -/
def shifted (value amount : Int) : Int := ⌊(value : ℚ) * 2 ^ amount⌋

theorem shifted_left (value : Int) (amount : Nat) : shifted value amount = value * 2 ^ amount := by
  have hcast : (value : ℚ) * 2 ^ (amount : Int) = ((value * 2 ^ amount : Int) : ℚ) := by
    push_cast
    rw [zpow_natCast]
  show ⌊(value : ℚ) * 2 ^ (amount : Int)⌋ = _
  rw [hcast, Int.floor_intCast]

theorem shifted_right (value : Int) (amount : Nat) : shifted value (-amount) = value / (2 ^ amount : Nat) := by
  have hcast : (value : ℚ) * 2 ^ (-(amount : Int)) = (value : ℚ) / ((2 ^ amount : Nat) : ℚ) := by
    push_cast
    rw [zpow_neg, zpow_natCast, div_eq_mul_inv]
  show ⌊(value : ℚ) * 2 ^ (-(amount : Int))⌋ = _
  rw [hcast]
  exact Rat.floor_intCast_div_natCast value (2 ^ amount)

theorem checkedShiftAmount_ok (h : amount ≤ maximumCompileTimeIntegerBits) :
    checkedShiftAmount amount = .ok amount := by
  show (if (amount : Int) < 0 ∨ (amount : Int) > maximumCompileTimeIntegerBits then _ else _) = _
  rw [if_neg (by omega), Int.toNat_natCast]

theorem shiftLeft_nonnegative (hvalue : WithinBound value) (amount : Nat) :
    Exactly (evaluateCompileTimeShiftLeft value amount) (some (value * 2 ^ amount)) := by
  rw [evaluateCompileTimeShiftLeft, checkCompileTimeInteger_within hvalue]
  simp only [bind, Except.bind]
  rw [if_neg (by omega)]
  by_cases hzero : value = 0
  · rw [if_pos hzero, hzero, Int.zero_mul]
    exact exactly_ok (withinBound_of_small (by decide))
  rw [if_neg hzero]
  obtain ⟨hpositive, hlow⟩ := two_pow_le_natAbs hzero
  by_cases hwide : (integerBitLength |value| : Int) + amount > maximumCompileTimeIntegerBits
  · rw [if_pos hwide]
    apply exactly_error_wide
    rw [withinBound_iff, Int.natAbs_mul, Int.natAbs_pow, not_lt]
    calc 2 ^ maximumCompileTimeIntegerBits ≤ 2 ^ (integerBitLength |value| - 1 + amount) :=
          Nat.pow_le_pow_right (by decide) (by omega)
      _ = 2 ^ (integerBitLength |value| - 1) * 2 ^ amount := Nat.pow_add _ _ _
      _ ≤ value.natAbs * 2 ^ amount := Nat.mul_le_mul_right _ hlow
  · rw [if_neg hwide, checkedShiftAmount_ok (by omega)]
    show Exactly (checkCompileTimeInteger (value <<< amount)) _
    rw [Int.shiftLeft_eq]
    exact checkCompileTimeInteger_exactly _

/-- No quotient by a power of two is wider than the dividend. -/
theorem withinBound_div (hvalue : WithinBound value) (amount : Nat) :
    WithinBound (value / (2 ^ amount : Nat)) := by
  refine withinBound_of_natAbs_le hvalue ?_
  have hpositive : (0 : Int) < (2 ^ amount : Nat) := Int.natCast_pos.mpr (Nat.two_pow_pos _)
  have hone : (1 : Int) ≤ (2 ^ amount : Nat) := hpositive
  rcases lt_or_ge value 0 with hneg | hnonneg
  · have hbelow : value / (2 ^ amount : Nat) < 0 := Int.ediv_neg_of_neg_of_pos hneg hpositive
    have habove : value ≤ value / (2 ^ amount : Nat) := by
      rw [Int.le_ediv_iff_mul_le hpositive]
      nlinarith
    omega
  · have hbelow : 0 ≤ value / (2 ^ amount : Nat) := Int.ediv_nonneg hnonneg hpositive.le
    have habove : value / (2 ^ amount : Nat) ≤ value := Int.ediv_le_self _ hnonneg
    omega

/-- What is left of a value in the bound after a shift by the width of the bound or more. -/
theorem div_past_bound (hvalue : WithinBound value) (hamount : maximumCompileTimeIntegerBits ≤ amount) :
    value / (2 ^ amount : Nat) = if value < 0 then -1 else 0 := by
  rw [withinBound_iff] at hvalue
  have hgrows : 2 ^ maximumCompileTimeIntegerBits ≤ 2 ^ amount := Nat.pow_le_pow_right (by decide) hamount
  generalize 2 ^ maximumCompileTimeIntegerBits = bound at hvalue hgrows
  generalize 2 ^ amount = divisor at hgrows
  by_cases hneg : value < 0
  · rw [if_pos hneg, Int.ediv_eq_iff_of_pos (by omega)]
    omega
  · rw [if_neg hneg]
    exact Int.ediv_eq_zero_of_lt (by omega) (by omega)

theorem shiftRight_nonnegative (hvalue : WithinBound value) (amount : Nat) :
    Exactly (evaluateCompileTimeShiftRight value amount) (some (value / (2 ^ amount : Nat))) := by
  rw [evaluateCompileTimeShiftRight, checkCompileTimeInteger_within hvalue]
  simp only [bind, Except.bind]
  rw [if_neg (by omega)]
  by_cases hpast : (amount : Int) ≥ maximumCompileTimeIntegerBits
  · have hcount : maximumCompileTimeIntegerBits ≤ amount := by omega
    rw [if_pos hpast, ← div_past_bound hvalue hcount]
    exact exactly_ok (withinBound_div hvalue amount)
  · have hcount : amount ≤ maximumCompileTimeIntegerBits := by omega
    rw [if_neg hpast, checkedShiftAmount_ok hcount]
    show Exactly (checkCompileTimeInteger (value >>> amount)) _
    rw [Int.shiftRight_eq_div_pow]
    exact checkCompileTimeInteger_exactly _

/-- A negative count is the opposite shift. -/
theorem shiftLeft_negative {amount : Int} (hvalue : WithinBound value) (h : amount < 0) :
    evaluateCompileTimeShiftLeft value amount = evaluateCompileTimeShiftRight value (-amount) := by
  rw [evaluateCompileTimeShiftLeft, checkCompileTimeInteger_within hvalue]
  exact if_pos h

theorem shiftRight_negative {amount : Int} (hvalue : WithinBound value) (h : amount < 0) :
    evaluateCompileTimeShiftRight value amount = evaluateCompileTimeShiftLeft value (-amount) := by
  rw [evaluateCompileTimeShiftRight, checkCompileTimeInteger_within hvalue]
  exact if_pos h

theorem evaluateCompileTimeShiftLeft_exactly (hvalue : WithinBound value) (amount : Int) :
    Exactly (evaluateCompileTimeShiftLeft value amount) (some (shifted value amount)) := by
  by_cases h : amount < 0
  · obtain ⟨count, rfl⟩ : ∃ count : Nat, amount = -count := ⟨amount.natAbs, by omega⟩
    rw [shiftLeft_negative hvalue h, Int.neg_neg, shifted_right]
    exact shiftRight_nonnegative hvalue count
  · obtain ⟨count, rfl⟩ := Int.eq_ofNat_of_zero_le (show 0 ≤ amount by omega)
    show Exactly (evaluateCompileTimeShiftLeft value (count : Int)) (some (shifted value (count : Int)))
    rw [shifted_left]
    exact shiftLeft_nonnegative hvalue count

theorem evaluateCompileTimeShiftRight_exactly (hvalue : WithinBound value) (amount : Int) :
    Exactly (evaluateCompileTimeShiftRight value amount) (some (shifted value (-amount))) := by
  by_cases h : amount < 0
  · obtain ⟨count, rfl⟩ : ∃ count : Nat, amount = -count := ⟨amount.natAbs, by omega⟩
    rw [shiftRight_negative hvalue h, Int.neg_neg, shifted_left]
    exact shiftLeft_nonnegative hvalue count
  · obtain ⟨count, rfl⟩ := Int.eq_ofNat_of_zero_le (show 0 ≤ amount by omega)
    show Exactly (evaluateCompileTimeShiftRight value (count : Int)) (some (shifted value (-(count : Int))))
    rw [shifted_right]
    exact shiftRight_nonnegative hvalue count

/-! ## The operations -/

/-- **Compile-time integers are exact under their bound.** No operation on operands in the bound refuses
a result that is in the bound, and none returns anything but the exact result. -/
theorem compileTimeIntegers_exact {value : Int} (hvalue : WithinBound value) :
    (∀ factor, WithinBound factor →
      Exactly (multiplyCompileTimeIntegers value factor) (some (value * factor))) ∧
    (∀ exponentValue, Exactly (evaluateCompileTimePower value exponentValue) (integerPower value exponentValue)) ∧
    (∀ amount, Exactly (evaluateCompileTimeShiftLeft value amount) (some (shifted value amount))) ∧
    ∀ amount, Exactly (evaluateCompileTimeShiftRight value amount) (some (shifted value (-amount))) :=
  ⟨fun _ hfactor => multiplyCompileTimeIntegers_exactly hvalue hfactor, evaluateCompileTimePower_exactly hvalue,
    evaluateCompileTimeShiftLeft_exactly hvalue, evaluateCompileTimeShiftRight_exactly hvalue⟩

/-- A negative value under each operation. -/
theorem compileTimeIntegers_exact_minus_three :
    multiplyCompileTimeIntegers (-3) 5 = .ok (-15) ∧ evaluateCompileTimePower (-3) 5 = .ok (-243) ∧
      evaluateCompileTimeShiftLeft (-3) 4 = .ok (-48) ∧ evaluateCompileTimeShiftRight (-3) 1 = .ok (-2) := by
  have hwithin : WithinBound (-3) := withinBound_of_small (by decide)
  refine ⟨?_, ?_, ?_, ?_⟩
  · exact ((compileTimeIntegers_exact hwithin).1 5 (withinBound_of_small (by decide)) _).mpr
      ⟨rfl, withinBound_of_small (by decide)⟩
  · exact ((compileTimeIntegers_exact hwithin).2.1 5 _).mpr ⟨rfl, withinBound_of_small (by decide)⟩
  · exact ((compileTimeIntegers_exact hwithin).2.2.1 4 _).mpr
      ⟨congrArg some (shifted_left (-3) 4), withinBound_of_small (by decide)⟩
  · exact ((compileTimeIntegers_exact hwithin).2.2.2 1 _).mpr
      ⟨congrArg some (shifted_right (-3) 1), withinBound_of_small (by decide)⟩

end Tala.Frontend
