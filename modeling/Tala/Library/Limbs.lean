import Mathlib.Data.Nat.Digits.Lemmas
import Mathlib.Data.List.DropRight
import Mathlib.Algebra.Order.Ring.Int
import Mathlib.Tactic.Ring
import Mathlib.Tactic.Linarith
import Mathlib.Tactic.LinearCombination

/-!
# `Library.Limbs` — natural numbers as lists of 32-bit limbs

The least significant limb comes first and `value` is the number that limbs stand for. Each operation is one
loop along the limbs with what it carries, in the machine's own arithmetic, and its lemma says which operation
on numbers it is: products do not leave 64 bits, and what is carried fits the next limb.
-/

namespace Tala.Library.Limbs

/-- The number that limbs stand for. -/
def value (limbs : List UInt32) : Nat := Nat.ofDigits (2 ^ 32) (limbs.map UInt32.toNat)

@[simp] theorem value_nil : value [] = 0 := rfl

@[simp] theorem value_cons (limb : UInt32) (rest : List UInt32) :
    value (limb :: rest) = limb.toNat + 2 ^ 32 * value rest := by
  simp [value, Nat.ofDigits_cons]

theorem value_append (low high : List UInt32) :
    value (low ++ high) = value low + (2 ^ 32) ^ low.length * value high := by
  simp [value, Nat.ofDigits_append]

theorem value_lt (limbs : List UInt32) : value limbs < (2 ^ 32) ^ limbs.length := by
  have h := Nat.ofDigits_lt_base_pow_length (b := 2 ^ 32) (l := limbs.map UInt32.toNat) (by norm_num) (by
    intro digit hdigit
    obtain ⟨limb, _, rfl⟩ := List.mem_map.mp hdigit
    exact limb.toNat_lt)
  rwa [List.length_map] at h

theorem value_replicate_zero (count : Nat) : value (List.replicate count 0) = 0 := by
  induction count with
  | zero => rfl
  | succ count ih => simp [List.replicate_succ, ih]

/-- Zero limbs at the low end multiply by a power of the radix. -/
theorem value_zeros_append (count : Nat) (limbs : List UInt32) :
    value (List.replicate count 0 ++ limbs) = (2 ^ 32) ^ count * value limbs := by
  rw [value_append, value_replicate_zero, List.length_replicate, Nat.zero_add]

/-- Limbs whose number is zero are zero. -/
theorem value_eq_zero_iff (limbs : List UInt32) : value limbs = 0 ↔ ∀ limb ∈ limbs, limb = 0 := by
  induction limbs with
  | nil => simp
  | cons limb rest ih =>
      have hzero : limb.toNat = 0 ↔ limb = 0 := by
        rw [← UInt32.toNat_inj]
        rfl
      simp only [value_cons, List.forall_mem_cons]
      rw [← ih, ← hzero]
      omega

/-- Dropping limbs divides by a power of the radix. -/
theorem value_drop (limbs : List UInt32) (count : Nat) :
    value (limbs.drop count) = value limbs / (2 ^ 32) ^ count := by
  by_cases h : count ≤ limbs.length
  · conv_rhs => rw [← List.take_append_drop count limbs, value_append]
    have hlength : (limbs.take count).length = count := List.length_take_of_le h
    have hlow := value_lt (limbs.take count)
    rw [hlength] at hlow ⊢
    rw [Nat.add_mul_div_left _ _ (by positivity), Nat.div_eq_of_lt hlow, Nat.zero_add]
  · have hle : limbs.length ≤ count := by omega
    rw [List.drop_eq_nil_of_le hle, Nat.div_eq_of_lt]
    · rfl
    · exact lt_of_lt_of_le (value_lt limbs) (Nat.pow_le_pow_right (by norm_num) hle)

/-- Taking limbs is the remainder by a power of the radix. -/
theorem value_take (limbs : List UInt32) (count : Nat) :
    value (limbs.take count) = value limbs % (2 ^ 32) ^ count := by
  by_cases h : count ≤ limbs.length
  · have hparts := value_append (limbs.take count) (limbs.drop count)
    rw [List.take_append_drop, List.length_take_of_le h, value_drop] at hparts
    have hdivided := Nat.mod_add_div (value limbs) ((2 ^ 32) ^ count)
    omega
  · have hle : limbs.length ≤ count := by omega
    rw [List.take_of_length_le hle, Nat.mod_eq_of_lt]
    exact lt_of_lt_of_le (value_lt limbs) (Nat.pow_le_pow_right (by norm_num) hle)

/-! ## Trimming -/

/-- Without the zero limbs at the high end. -/
def trim (limbs : List UInt32) : List UInt32 := limbs.rdropWhile (· == 0)

theorem value_trim (limbs : List UInt32) : value (trim limbs) = value limbs := by
  unfold trim
  induction limbs using List.reverseRecOn with
  | nil => rfl
  | append_singleton limbs limb ih =>
      by_cases hzero : (limb == 0) = true
      · have hlimb : limb = 0 := by simpa using hzero
        rw [List.rdropWhile_concat, if_pos hzero, ih, value_append, hlimb]
        simp
      · rw [List.rdropWhile_concat, if_neg hzero]

theorem length_trim_le (limbs : List UInt32) : (trim limbs).length ≤ limbs.length :=
  (List.rdropWhile_prefix _ _).length_le

/-- Trimmed limbs are gone exactly when the number is zero. -/
theorem trim_eq_nil_iff (limbs : List UInt32) : trim limbs = [] ↔ value limbs = 0 := by
  rw [value_eq_zero_iff]
  unfold trim
  rw [List.rdropWhile_eq_nil_iff]
  simp

/-! ## Products -/

/-- Each limb times the factor, with what the limb before it carries. -/
def multiply (factor : UInt32) : List UInt32 → UInt64 → List UInt32 × UInt64
  | [], carry => ([], carry)
  | limb :: rest, carry =>
      let product := limb.toUInt64 * factor.toUInt64 + carry
      let (limbs, last) := multiply factor rest (product >>> 32)
      ((product &&& 0xffffffff).toUInt32 :: limbs, last)

variable {carry : UInt64} {part : UInt32}

/-- One product and its carry fit 64 bits. -/
theorem product_toNat (limb factor : UInt32) (hcarry : carry.toNat < 2 ^ 32) :
    (limb.toUInt64 * factor.toUInt64 + carry).toNat = limb.toNat * factor.toNat + carry.toNat := by
  have hlimb := limb.toNat_lt
  have hfactor := factor.toNat_lt
  have hproduct : limb.toNat * factor.toNat ≤ (2 ^ 32 - 1) * (2 ^ 32 - 1) :=
    Nat.mul_le_mul (by omega) (by omega)
  rw [UInt64.toNat_add, UInt64.toNat_mul, UInt32.toNat_toUInt64, UInt32.toNat_toUInt64]
  omega

theorem low_toNat (product : UInt64) : (product &&& 0xffffffff).toUInt32.toNat = product.toNat % 2 ^ 32 := by
  rw [UInt64.toNat_toUInt32, UInt64.toNat_and]
  show (product.toNat &&& 2 ^ 32 - 1) % 2 ^ 32 = _
  rw [Nat.and_two_pow_sub_one_eq_mod, Nat.mod_mod]

theorem high_toNat (product : UInt64) : (product >>> 32).toNat = product.toNat / 2 ^ 32 := by
  rw [UInt64.toNat_shiftRight, Nat.shiftRight_eq_div_pow]
  rfl

theorem multiply_length (factor : UInt32) (limbs : List UInt32) (carry : UInt64) :
    (multiply factor limbs carry).1.length = limbs.length := by
  induction limbs generalizing carry with
  | nil => rfl
  | cons limb rest ih => simp [multiply, ih]

/-- **The product** is in the limbs and what the last one carries. -/
theorem multiply_spec (factor : UInt32) (limbs : List UInt32) (hcarry : carry.toNat < 2 ^ 32) :
    value (multiply factor limbs carry).1 + (2 ^ 32) ^ limbs.length * (multiply factor limbs carry).2.toNat
        = value limbs * factor.toNat + carry.toNat ∧
      (multiply factor limbs carry).2.toNat < 2 ^ 32 := by
  induction limbs generalizing carry with
  | nil => simpa [multiply] using hcarry
  | cons limb rest ih =>
      have hproduct := product_toNat limb factor hcarry
      have hlimb := limb.toNat_lt
      have hfactor := factor.toNat_lt
      have hhigh : ((limb.toUInt64 * factor.toUInt64 + carry) >>> 32).toNat < 2 ^ 32 := by
        rw [high_toNat]
        have := (limb.toUInt64 * factor.toUInt64 + carry).toNat_lt
        omega
      obtain ⟨hvalue, hlast⟩ := ih hhigh
      refine ⟨?_, hlast⟩
      simp only [multiply, value_cons, low_toNat, List.length_cons]
      rw [high_toNat, hproduct] at hvalue
      rw [hproduct, pow_succ (2 ^ 32)]
      have hsplit := Nat.mod_add_div (limb.toNat * factor.toNat + carry.toNat) (2 ^ 32)
      linear_combination 2 ^ 32 * hvalue + hsplit

/-! ## Shifts -/

/-- Each limb shifted to the left, with the bits of the limb before it. -/
def shiftLeft (part : UInt32) : List UInt32 → UInt32 → List UInt32 × UInt32
  | [], carried => ([], carried)
  | limb :: rest, carried =>
      let (limbs, last) := shiftLeft part rest (limb >>> (32 - part))
      ((limb <<< part ||| carried) :: limbs, last)

theorem shiftLeft_length (part : UInt32) (limbs : List UInt32) (carried : UInt32) :
    (shiftLeft part limbs carried).1.length = limbs.length := by
  induction limbs generalizing carried with
  | nil => rfl
  | cons limb rest ih => simp [shiftLeft, ih]

/-- A limb's low bits at the high end, beside bits that fill the gap. -/
theorem limb_or (limb carried : UInt32) (hpart : part.toNat < 32) (hcarried : carried.toNat < 2 ^ part.toNat) :
    (limb <<< part ||| carried).toNat = limb.toNat % 2 ^ (32 - part.toNat) * 2 ^ part.toNat + carried.toNat := by
  rw [UInt32.toNat_or, UInt32.toNat_shiftLeft, Nat.mod_eq_of_lt hpart]
  have hpower : 2 ^ 32 = 2 ^ (32 - part.toNat) * 2 ^ part.toNat := by
    rw [← pow_add]
    congr 1
    omega
  have hlow : limb.toNat <<< part.toNat % 2 ^ 32 = (limb.toNat % 2 ^ (32 - part.toNat)) <<< part.toNat := by
    rw [Nat.shiftLeft_eq, Nat.shiftLeft_eq, hpower, Nat.mul_mod_mul_right]
  rw [hlow, ← Nat.shiftLeft_add_eq_or_of_lt hcarried, Nat.shiftLeft_eq]

theorem complement_toNat (hpart : part.toNat < 32) : (32 - part).toNat = 32 - part.toNat := by
  rw [UInt32.toNat_sub]
  have h : (32 : UInt32).toNat = 32 := rfl
  omega

/-- **A shift of limbs** by less than a limb. -/
theorem shiftLeft_spec (hpositive : 0 < part.toNat) (hpart : part.toNat < 32)
    (limbs : List UInt32) {carried : UInt32} (hcarried : carried.toNat < 2 ^ part.toNat) :
    value (shiftLeft part limbs carried).1 + (2 ^ 32) ^ limbs.length * (shiftLeft part limbs carried).2.toNat
      = value limbs * 2 ^ part.toNat + carried.toNat := by
  induction limbs generalizing carried with
  | nil => simp [shiftLeft]
  | cons limb rest ih =>
      have hcomplement := complement_toNat hpart
      have hpower : 2 ^ 32 = 2 ^ (32 - part.toNat) * 2 ^ part.toNat := by
        rw [← pow_add]
        congr 1
        omega
      have hhigh : (limb >>> (32 - part)).toNat = limb.toNat / 2 ^ (32 - part.toNat) := by
        rw [UInt32.toNat_shiftRight, hcomplement, Nat.mod_eq_of_lt (by omega), Nat.shiftRight_eq_div_pow]
      have hfits : (limb >>> (32 - part)).toNat < 2 ^ part.toNat := by
        rw [hhigh, Nat.div_lt_iff_lt_mul (by positivity), mul_comm, ← hpower]
        exact limb.toNat_lt
      have hvalue := ih hfits
      simp only [shiftLeft, value_cons, List.length_cons]
      rw [limb_or limb carried hpart hcarried, pow_succ (2 ^ 32)]
      rw [hhigh] at hvalue
      have hsplit := Nat.mod_add_div limb.toNat (2 ^ (32 - part.toNat))
      have hscaled : limb.toNat % 2 ^ (32 - part.toNat) * 2 ^ part.toNat
          + 2 ^ 32 * (limb.toNat / 2 ^ (32 - part.toNat)) = limb.toNat * 2 ^ part.toNat := by
        rw [hpower]
        linear_combination 2 ^ part.toNat * hsplit
      linear_combination 2 ^ 32 * hvalue + hscaled

/-- Each limb shifted to the right, with the bits of the limb after it. -/
def shiftRight (part : UInt32) : List UInt32 → List UInt32
  | [] => []
  | [limb] => [limb >>> part]
  | limb :: next :: rest =>
      (if part ≠ 0 then limb >>> part ||| next <<< (32 - part) else limb >>> part) ::
        shiftRight part (next :: rest)

theorem shiftRight_length (part : UInt32) : ∀ limbs : List UInt32, (shiftRight part limbs).length = limbs.length
  | [] => rfl
  | [_] => rfl
  | _ :: next :: rest => by
      simp only [shiftRight, List.length_cons]
      rw [shiftRight_length part (next :: rest), List.length_cons]

/-- **A shift of limbs to the right** by less than a limb. -/
theorem shiftRight_spec (hpart : part.toNat < 32) :
    ∀ limbs : List UInt32, value (shiftRight part limbs) = value limbs / 2 ^ part.toNat
  | [] => by simp [shiftRight]
  | [limb] => by
      simp only [shiftRight, value_cons, value_nil]
      rw [UInt32.toNat_shiftRight, Nat.mod_eq_of_lt hpart, Nat.shiftRight_eq_div_pow]
      simp
  | limb :: next :: rest => by
      have hrest := shiftRight_spec hpart (next :: rest)
      have hpower : 2 ^ 32 = 2 ^ part.toNat * 2 ^ (32 - part.toNat) := by
        rw [← pow_add]
        congr 1
        omega
      -- the number shifted, with the part of the higher limbs that crosses into this one
      have hsplit : (limb.toNat + 2 ^ 32 * value (next :: rest)) / 2 ^ part.toNat
          = limb.toNat / 2 ^ part.toNat + 2 ^ (32 - part.toNat) * value (next :: rest) := by
        rw [hpower, mul_assoc, Nat.add_mul_div_left _ _ (by positivity)]
      rw [value_cons limb, hsplit]
      show UInt32.toNat (if part ≠ 0 then _ else _) + 2 ^ 32 * value (shiftRight part (next :: rest)) = _
      rw [hrest]
      by_cases hzero : part = 0
      · rw [if_neg (not_not.mpr hzero), hzero]
        simp
      · have hpositive : 0 < part.toNat := by
          rw [Nat.pos_iff_ne_zero]
          intro h
          exact hzero (UInt32.toNat_inj.mp h)
        rw [if_pos hzero]
        have hcomplement := complement_toNat hpart
        have hlow : (limb >>> part).toNat = limb.toNat / 2 ^ part.toNat := by
          rw [UInt32.toNat_shiftRight, Nat.mod_eq_of_lt hpart, Nat.shiftRight_eq_div_pow]
        have hfits : (limb >>> part).toNat < 2 ^ (32 - part).toNat := by
          rw [hlow, hcomplement, Nat.div_lt_iff_lt_mul (by positivity), mul_comm, ← hpower]
          exact limb.toNat_lt
        rw [UInt32.or_comm, limb_or next (limb >>> part) (by omega) hfits, hlow, hcomplement,
          Nat.sub_sub_self (by omega)]
        -- the higher limbs lose their low bits to this one
        have hvalue : value (next :: rest) % 2 ^ part.toNat = next.toNat % 2 ^ part.toNat := by
          rw [value_cons, hpower, mul_assoc, Nat.add_mul_mod_self_left]
        have hhigh := Nat.mod_add_div (value (next :: rest)) (2 ^ part.toNat)
        rw [hvalue] at hhigh
        rw [hpower]
        linear_combination 2 ^ (32 - part.toNat) * hhigh

/-! ## Quotients -/

/-- The limbs of the quotient, from the high end, and what remains. -/
def divide (divisor : UInt32) : List UInt32 → List UInt32 × UInt64
  | [] => ([], 0)
  | limb :: rest =>
      let (quotients, remainder) := divide divisor rest
      let dividend := remainder <<< 32 ||| limb.toUInt64
      ((dividend / divisor.toUInt64).toUInt32 :: quotients, dividend % divisor.toUInt64)

theorem divide_length (divisor : UInt32) (limbs : List UInt32) :
    (divide divisor limbs).1.length = limbs.length := by
  induction limbs with
  | nil => rfl
  | cons limb rest ih => simp [divide, ih]

/-- The remainder and the next limb together. -/
theorem dividend_toNat {remainder : UInt64} (limb : UInt32) (h : remainder.toNat < 2 ^ 32) :
    (remainder <<< 32 ||| limb.toUInt64).toNat = remainder.toNat * 2 ^ 32 + limb.toNat := by
  rw [UInt64.toNat_or, UInt64.toNat_shiftLeft, UInt32.toNat_toUInt64]
  show remainder.toNat <<< 32 % 2 ^ 64 ||| limb.toNat = _
  have hlimb := limb.toNat_lt
  have hfits : remainder.toNat <<< 32 < 2 ^ 64 := by
    rw [Nat.shiftLeft_eq]
    omega
  rw [Nat.mod_eq_of_lt hfits, ← Nat.shiftLeft_add_eq_or_of_lt hlimb, Nat.shiftLeft_eq]

/-- **Division of limbs** leaves the quotient and the remainder of the number. -/
theorem divide_spec {divisor : UInt32} (hdivisor : 0 < divisor.toNat) (limbs : List UInt32) :
    value (divide divisor limbs).1 = value limbs / divisor.toNat ∧
      (divide divisor limbs).2.toNat = value limbs % divisor.toNat := by
  induction limbs with
  | nil => simp [divide]
  | cons limb rest ih =>
      obtain ⟨hquotient, hremainder⟩ := ih
      have hlimb := limb.toNat_lt
      have hbound := divisor.toNat_lt
      have hless : (divide divisor rest).2.toNat < divisor.toNat := by
        rw [hremainder]
        exact Nat.mod_lt _ hdivisor
      have hdividend := dividend_toNat limb (lt_trans hless hbound)
      -- the quotient of one step is a limb
      have hstep : ((divide divisor rest).2.toNat * 2 ^ 32 + limb.toNat) / divisor.toNat < 2 ^ 32 := by
        rw [Nat.div_lt_iff_lt_mul hdivisor]
        have := Nat.mul_le_mul_right (2 ^ 32) (Nat.succ_le_of_lt hless)
        rw [Nat.succ_mul] at this
        linarith
      have hsplit : limb.toNat + 2 ^ 32 * value rest
          = (divide divisor rest).2.toNat * 2 ^ 32 + limb.toNat
            + divisor.toNat * (2 ^ 32 * value (divide divisor rest).1) := by
        have hrest := Nat.mod_add_div (value rest) divisor.toNat
        rw [← hquotient, ← hremainder] at hrest
        rw [← hrest]
        ring
      refine ⟨?_, ?_⟩
      · show UInt32.toNat (UInt64.toUInt32 _) + 2 ^ 32 * value (divide divisor rest).1
          = value (limb :: rest) / divisor.toNat
        rw [UInt64.toNat_toUInt32, UInt64.toNat_div, UInt32.toNat_toUInt64, hdividend,
          Nat.mod_eq_of_lt hstep, value_cons, hsplit, Nat.add_mul_div_left _ _ hdivisor]
      · show UInt64.toNat (_ % _) = value (limb :: rest) % divisor.toNat
        rw [UInt64.toNat_mod, UInt32.toNat_toUInt64, hdividend, value_cons, hsplit,
          Nat.add_mul_mod_self_left]

/-! ## The next number -/

/-- The limbs plus one, and whether the last limb carries. -/
def increment : List UInt32 → List UInt32 × Bool
  | [] => ([], true)
  | limb :: rest =>
      if limb + 1 ≠ 0 then ((limb + 1) :: rest, false)
      else
        let (limbs, carries) := increment rest
        ((limb + 1) :: limbs, carries)

theorem increment_length (limbs : List UInt32) : (increment limbs).1.length = limbs.length := by
  induction limbs with
  | nil => rfl
  | cons limb rest ih =>
      unfold increment
      split
      · rfl
      · simp [ih]

theorem increment_spec (limbs : List UInt32) :
    value (increment limbs).1 + (2 ^ 32) ^ limbs.length * (increment limbs).2.toNat = value limbs + 1 := by
  induction limbs with
  | nil => rfl
  | cons limb rest ih =>
      have hlimb := limb.toNat_lt
      have hnext : (limb + 1).toNat = (limb.toNat + 1) % 2 ^ 32 := by
        rw [UInt32.toNat_add]
        rfl
      unfold increment
      by_cases hzero : limb + 1 = 0
      · rw [if_neg (not_not.mpr hzero)]
        rw [value_cons limb, List.length_cons, pow_succ (2 ^ 32)]
        have hlast : limb.toNat + 1 = 2 ^ 32 := by
          rw [hzero] at hnext
          have h : (0 : UInt32).toNat = 0 := rfl
          omega
        rw [hzero]
        show 0 + 2 ^ 32 * value (increment rest).1 + (2 ^ 32) ^ rest.length * 2 ^ 32 * (increment rest).2.toNat = _
        linear_combination 2 ^ 32 * ih - hlast
      · rw [if_pos hzero]
        have hfits : (limb + 1).toNat = limb.toNat + 1 := by
          rw [hnext, Nat.mod_eq_of_lt]
          by_contra h
          have hlast : limb.toNat + 1 = 2 ^ 32 := by omega
          rw [hlast, Nat.mod_self] at hnext
          exact hzero (UInt32.toNat_inj.mp hnext)
        simp only [value_cons, hfits]
        show _ + _ * 0 = _
        ring

end Tala.Library.Limbs
