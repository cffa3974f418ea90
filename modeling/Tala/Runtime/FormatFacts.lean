import Tala.Library.BinaryFloat
import Tala.Runtime.Format

/-!
# `Runtime.FormatFacts` — the natural numbers of a conversion compute what they say

One lemma for each operation of `Natural` says which operation on numbers it is and that a limb more is enough
room for it. `scaledValue_spec` puts them together: for every finite value the limbs never fill the capacity,
and the scaled value is the nearest integer.
-/

namespace Tala.Runtime.Text

open Tala.Library Tala.Library.BinaryFloat

namespace Natural

variable {natural : Natural}

theorem ofUInt64_value (value : UInt64) : (ofUInt64 value).value = value.toNat := by
  have hlow := Limbs.low_toNat value
  have hhigh := Limbs.high_toNat value
  have hsplit := Nat.mod_add_div value.toNat (2 ^ 32)
  have hbound := value.toNat_lt
  have hupper : (value >>> 32).toUInt32.toNat = value.toNat / 2 ^ 32 := by
    rw [UInt64.toNat_toUInt32, hhigh]
    omega
  unfold ofUInt64 Natural.value
  dsimp only
  split_ifs with hzero hnonzero
  · simp only [Limbs.value_cons, Limbs.value_nil, hlow, hupper]
    omega
  · have hnone : (value >>> 32).toUInt32.toNat = 0 := by
      rw [not_not.mp hzero]
      rfl
    simp only [Limbs.value_cons, Limbs.value_nil, hlow]
    omega
  · have hnone : (value >>> 32).toUInt32.toNat = 0 := by
      rw [not_not.mp hzero]
      rfl
    have hempty : (value &&& 0xffffffff).toUInt32.toNat = 0 := by
      rw [not_not.mp hnonzero]
      rfl
    show 0 = _
    omega

theorem ofUInt64_length (value : UInt64) : (ofUInt64 value).limbs.length ≤ 2 := by
  unfold ofUInt64
  dsimp only
  split_ifs <;> simp

/-- One more limb, where there is room for it. -/
theorem push_spec (natural : Natural) (limb : UInt32) (hroom : natural.limbs.length < limbCapacity) :
    ∃ pushed, natural.push limb = some pushed ∧ pushed.limbs.length = natural.limbs.length + 1 ∧
      pushed.value = natural.value + (2 ^ 32) ^ natural.limbs.length * limb.toNat := by
  unfold push
  rw [dif_neg (by omega)]
  refine ⟨_, rfl, List.length_append, ?_⟩
  show Limbs.value (natural.limbs ++ [limb]) = _
  rw [Limbs.value_append]
  simp [value]

theorem multiply_spec (natural : Natural) (factor : UInt32) (hroom : natural.limbs.length < limbCapacity) :
    ∃ product, natural.multiply factor = some product ∧ product.value = natural.value * factor.toNat ∧
      product.limbs.length ≤ natural.limbs.length + 1 := by
  have hnone : (0 : UInt64).toNat < 2 ^ 32 := by decide
  obtain ⟨hvalue, hcarry⟩ := Limbs.multiply_spec factor natural.limbs hnone
  have hlength := Limbs.multiply_length factor natural.limbs 0
  rw [UInt64.toNat_zero, Nat.add_zero] at hvalue
  unfold multiply
  dsimp only
  split_ifs with hzero
  · have hfree := lt_of_eq_of_lt hlength hroom
    obtain ⟨product, hproduct, hpushed, hpushedValue⟩ := push_spec
      ⟨_, hfree.le⟩ (Limbs.multiply factor natural.limbs 0).2.toUInt32 hfree
    refine ⟨product, hproduct, ?_, (hpushed.trans (congrArg (· + 1) hlength)).le⟩
    rw [hpushedValue]
    show Limbs.value (Limbs.multiply factor natural.limbs 0).1
      + (2 ^ 32) ^ (Limbs.multiply factor natural.limbs 0).1.length * _ = Limbs.value natural.limbs * _
    rw [hlength, ← hvalue, UInt64.toNat_toUInt32, Nat.mod_eq_of_lt hcarry]
  · refine ⟨_, rfl, ?_, by rw [hlength]; omega⟩
    have hnone : (Limbs.multiply factor natural.limbs 0).2.toNat = 0 := by
      rw [not_not.mp hzero]
      rfl
    rw [hnone, Nat.mul_zero, Nat.add_zero] at hvalue
    exact hvalue

/-- The part of a shift that is less than a limb. -/
theorem shiftedPart_value {part : UInt32} (hpart : part.toNat < 32) :
    Limbs.value (natural.shiftedPart part) = natural.value * 2 ^ part.toNat := by
  unfold shiftedPart
  by_cases hzero : part = 0
  · rw [if_neg (not_not.mpr hzero), hzero]
    simp [value]
  · rw [if_pos hzero]
    have hpositive : 0 < part.toNat := by
      rw [Nat.pos_iff_ne_zero]
      intro h
      exact hzero (UInt32.toNat_inj.mp h)
    have hnone : (0 : UInt32).toNat < 2 ^ part.toNat := Nat.two_pow_pos _
    have hvalue := Limbs.shiftLeft_spec hpositive hpart natural.limbs hnone
    rw [UInt32.toNat_zero, Nat.add_zero] at hvalue
    show Limbs.value (if (Limbs.shiftLeft part natural.limbs 0).2 ≠ 0
      then (Limbs.shiftLeft part natural.limbs 0).1 ++ [(Limbs.shiftLeft part natural.limbs 0).2]
      else (Limbs.shiftLeft part natural.limbs 0).1) = Limbs.value natural.limbs * 2 ^ part.toNat
    split_ifs with hnone
    · rw [Limbs.value_append, Limbs.shiftLeft_length, ← hvalue]
      simp
    · rw [← hvalue, not_not.mp hnone]
      simp

theorem isZero_iff : natural.isZero = true ↔ natural.limbs = [] := List.isEmpty_iff

theorem value_of_isZero (h : natural.isZero = true) : natural.value = 0 := by
  unfold value
  rw [isZero_iff.mp h]
  rfl

/-- A position below a limb's width as the machine holds it. -/
theorem part_toNat (bits : Nat) : (UInt32.ofNat (bits % 32)).toNat = bits % 32 := by
  rw [UInt32.toNat_ofNat']
  omega

theorem pow_bits (bits : Nat) : (2 ^ 32) ^ (bits / 32) * 2 ^ (bits % 32) = 2 ^ bits := by
  rw [← pow_mul, ← pow_add, Nat.div_add_mod]

theorem shiftLeft_spec (natural : Natural) (bits : Nat) (hroom : natural.limbs.length + bits / 32 + 1 ≤ limbCapacity) :
    ∃ shifted, natural.shiftLeft bits = some shifted ∧ shifted.value = natural.value * 2 ^ bits := by
  unfold shiftLeft
  by_cases htrivial : (natural.isZero || decide (bits = 0)) = true
  · rw [if_pos htrivial]
    refine ⟨natural, rfl, ?_⟩
    rw [Bool.or_eq_true, decide_eq_true_eq] at htrivial
    rcases htrivial with hzero | rfl
    · rw [value_of_isZero hzero, Nat.zero_mul]
    · rw [pow_zero, Nat.mul_one]
  · rw [if_neg htrivial]
    dsimp only
    rw [dif_neg (by omega)]
    refine ⟨_, rfl, ?_⟩
    show Limbs.value (List.replicate (bits / 32) 0 ++ natural.shiftedPart _) = _
    rw [Limbs.value_zeros_append, shiftedPart_value (by rw [part_toNat]; omega), part_toNat,
      ← pow_bits bits]
    ring

/-- A limb in use, by its place in the number. -/
theorem getElem?_limbs (natural : Natural) (position : Nat) : (natural.limbs[position]?).elim 0 UInt32.toNat
    = natural.value / (2 ^ 32) ^ position % 2 ^ 32 := by
  unfold value
  rw [← Limbs.value_drop]
  cases hdrop : natural.limbs.drop position with
  | nil =>
      rw [List.getElem?_eq_none (List.drop_eq_nil_iff.mp hdrop)]
      rfl
  | cons limb rest =>
      have hget : natural.limbs[position]? = some limb := by
        rw [← List.head?_drop, hdrop]
        rfl
      rw [hget, Limbs.value_cons, Nat.add_mul_mod_self_left]
      exact (Nat.mod_eq_of_lt limb.toNat_lt).symm

/-- A position splits into a limb and a place in it. -/
theorem div_pow (position : Nat) (number : Nat) :
    number / (2 ^ 32) ^ (position / 32) / 2 ^ (position % 32) = number / 2 ^ position := by
  rw [Nat.div_div_eq_div_mul, pow_bits]

theorem bit_iff (position : Nat) : natural.bit position = true ↔ natural.value / 2 ^ position % 2 = 1 := by
  have hlimb := natural.getElem?_limbs (position / 32)
  have hsmall : position % 32 < 32 := Nat.mod_lt _ (by decide)
  -- the bit of the number is the bit of the limb
  have hplace : natural.value / 2 ^ position % 2
      = natural.value / (2 ^ 32) ^ (position / 32) % 2 ^ 32 / 2 ^ (position % 32) % 2 := by
    have hpower : 2 ^ 32 = 2 ^ (position % 32) * 2 ^ (32 - position % 32) := by
      rw [← pow_add]
      congr 1
      omega
    rw [← div_pow, hpower, Nat.mod_mul_right_div_self, ← hpower]
    have hfactor : 2 ^ (32 - position % 32) = 2 * 2 ^ (31 - position % 32) := by
      rw [← pow_succ']
      congr 1
      omega
    rw [hfactor, Nat.mod_mul_right_mod]
  rw [hplace, ← hlimb]
  unfold bit
  cases natural.limbs[position / 32]? with
  | none => simp
  | some limb =>
      have hbit : (limb >>> UInt32.ofNat (position % 32) &&& 1).toNat
          = limb.toNat / 2 ^ (position % 32) % 2 := by
        rw [UInt32.toNat_and, UInt32.toNat_shiftRight, part_toNat, Nat.mod_eq_of_lt hsmall,
          Nat.shiftRight_eq_div_pow]
        exact Nat.and_one_is_mod _
      show (limb >>> UInt32.ofNat (position % 32) &&& 1 != 0) = true
        ↔ limb.toNat / 2 ^ (position % 32) % 2 = 1
      rw [← hbit, bne_iff_ne, ne_eq, ← UInt32.toNat_inj, hbit]
      show ¬ _ = 0 ↔ _
      omega

theorem isOdd_iff : natural.isOdd = true ↔ natural.value % 2 = 1 := by
  unfold isOdd value
  cases natural.limbs with
  | nil => simp
  | cons limb rest =>
      have hbit : (limb &&& 1).toNat = limb.toNat % 2 := by
        rw [UInt32.toNat_and]
        exact Nat.and_one_is_mod _
      show (limb &&& 1 != 0) = true ↔ _
      rw [bne_iff_ne, ne_eq, ← UInt32.toNat_inj, hbit, Limbs.value_cons]
      show ¬ _ = 0 ↔ _
      omega

/-- The bits of a limb below a place. -/
theorem lowBits_toNat (limb : UInt32) {place : Nat} (hplace : place < 32) :
    (limb &&& ((1 <<< UInt32.ofNat place) - 1)).toNat = limb.toNat % 2 ^ place := by
  have hpower : 2 ^ place < 2 ^ 32 := Nat.pow_lt_pow_right (by decide) hplace
  have hmask : ((1 <<< UInt32.ofNat place) - 1 : UInt32).toNat = 2 ^ place - 1 := by
    have hshift : (1 <<< UInt32.ofNat place : UInt32).toNat = 2 ^ place := by
      rw [UInt32.toNat_shiftLeft, UInt32.toNat_ofNat', Nat.shiftLeft_eq]
      show 1 * 2 ^ (place % 2 ^ 32 % 32) % 2 ^ 32 = 2 ^ place
      rw [Nat.mod_eq_of_lt (a := place) (by omega), Nat.mod_eq_of_lt hplace, one_mul,
        Nat.mod_eq_of_lt hpower]
    rw [UInt32.toNat_sub_of_le, hshift]
    · rfl
    · rw [UInt32.le_iff_toNat_le, hshift]
      exact Nat.one_le_two_pow
  rw [UInt32.toNat_and, hmask, Nat.and_two_pow_sub_one_eq_mod]

theorem below_iff (position : Nat) : natural.below position = true ↔ natural.value % 2 ^ position ≠ 0 := by
  have hlimb := natural.getElem?_limbs (position / 32)
  have hsmall : position % 32 < 32 := Nat.mod_lt _ (by decide)
  -- what is below: the lower limbs, and the lower bits of the limb at the position
  have hsplit : natural.value % 2 ^ position = natural.value % (2 ^ 32) ^ (position / 32)
      + (2 ^ 32) ^ (position / 32) * (natural.value / (2 ^ 32) ^ (position / 32) % 2 ^ (position % 32)) := by
    rw [← pow_bits position, Nat.mod_mul]
  have hlow : (natural.limbs.take (position / 32)).any (· != 0) = true
      ↔ natural.value % (2 ^ 32) ^ (position / 32) ≠ 0 := by
    unfold value
    rw [← Limbs.value_take, ne_eq, Limbs.value_eq_zero_iff, List.any_eq_true]
    simp
  have hpart : (position % 32 != 0 &&
      natural.limbHas (position / 32) ((1 <<< UInt32.ofNat (position % 32)) - 1)) = true ↔ natural.value / (2 ^ 32) ^ (position / 32) % 2 ^ (position % 32) ≠ 0 := by
    have hlower : natural.value / (2 ^ 32) ^ (position / 32) % 2 ^ (position % 32)
        = natural.value / (2 ^ 32) ^ (position / 32) % 2 ^ 32 % 2 ^ (position % 32) := by
      rw [Nat.mod_mod_of_dvd]
      exact pow_dvd_pow 2 hsmall.le
    rw [hlower, ← hlimb]
    unfold limbHas
    cases natural.limbs[position / 32]? with
    | none => simp
    | some limb =>
        have hbits := lowBits_toNat limb hsmall
        show (position % 32 != 0 && (limb &&& ((1 <<< UInt32.ofNat (position % 32)) - 1) != 0)) = true
          ↔ limb.toNat % 2 ^ (position % 32) ≠ 0
        rw [← hbits, Bool.and_eq_true, bne_iff_ne, bne_iff_ne, ne_eq, ne_eq, ne_eq, ← UInt32.toNat_inj]
        show _ ∧ ¬ _ = 0 ↔ ¬ _ = 0
        refine ⟨fun h => h.2, fun h => ⟨?_, h⟩⟩
        intro hzero
        rw [hbits, hzero, pow_zero, Nat.mod_one] at h
        exact h rfl
  show (_ || _) = true ↔ _
  rw [Bool.or_eq_true, hlow, hpart, hsplit]
  have hpositive : 0 < (2 ^ 32) ^ (position / 32) := by positivity
  rw [ne_eq, ne_eq, ne_eq, Nat.add_eq_zero_iff, Nat.mul_eq_zero]
  omega

theorem shiftRight_value (bits : Nat) : (natural.shiftRight bits).value = natural.value / 2 ^ bits := by
  have hdrop := Limbs.value_drop natural.limbs (bits / 32)
  unfold shiftRight
  split_ifs with hall
  · show 0 = _
    rw [List.drop_eq_nil_of_le hall, Limbs.value_nil] at hdrop
    rw [← div_pow]
    unfold value
    rw [← hdrop, Nat.zero_div]
  · show Limbs.value (Limbs.trim _) = _
    rw [Limbs.value_trim, Limbs.shiftRight_spec (by rw [part_toNat]; omega), hdrop, part_toNat]
    exact div_pow bits _

theorem shiftRight_length (natural : Natural) (bits : Nat) : (natural.shiftRight bits).limbs.length ≤ natural.limbs.length := by
  unfold shiftRight
  split_ifs
  · exact Nat.zero_le _
  · refine le_trans (Limbs.length_trim_le _) ?_
    rw [Limbs.shiftRight_length, List.length_drop]
    exact Nat.sub_le _ _

theorem increment_spec (natural : Natural) (hroom : natural.limbs.length < limbCapacity) :
    ∃ next, natural.increment = some next ∧ next.value = natural.value + 1 := by
  have hvalue := Limbs.increment_spec natural.limbs
  have hlength := Limbs.increment_length natural.limbs
  unfold increment
  dsimp only
  split_ifs with hcarries
  · have hfree := lt_of_eq_of_lt hlength hroom
    obtain ⟨next, hnext, _, hpushedValue⟩ := push_spec ⟨_, hfree.le⟩ 1 hfree
    refine ⟨next, hnext, ?_⟩
    rw [hpushedValue]
    show Limbs.value (Limbs.increment natural.limbs).1
      + (2 ^ 32) ^ (Limbs.increment natural.limbs).1.length * _ = Limbs.value natural.limbs + 1
    rw [hlength, ← hvalue, hcarries]
    rfl
  · refine ⟨_, rfl, ?_⟩
    rw [Bool.not_eq_true] at hcarries
    rw [hcarries] at hvalue
    exact hvalue

/-- **Rounding by the bits that are dropped** gives the nearest integer, the even one at a tie. -/
theorem nearestInteger_of_bits (number bits : Nat) (hbits : 0 < bits) :
    NearestInteger ((number : ℚ) / 2 ^ bits)
      ((number / 2 ^ bits + if number / 2 ^ (bits - 1) % 2 = 1 ∧
        (number % 2 ^ (bits - 1) ≠ 0 ∨ number / 2 ^ bits % 2 = 1) then 1 else 0 : Nat) : Int) := by
  obtain ⟨place, rfl⟩ : ∃ place, bits = place + 1 := ⟨bits - 1, by omega⟩
  rw [Nat.add_sub_cancel]
  -- the integer, the bit of a half and what is below it
  have hhalf : number / 2 ^ place = 2 * (number / 2 ^ (place + 1)) + number / 2 ^ place % 2 := by
    rw [pow_succ, ← Nat.div_div_eq_div_mul]
    omega
  have hbelow := Nat.mod_add_div number (2 ^ place)
  have hless : number % 2 ^ place < 2 ^ place := Nat.mod_lt _ (by positivity)
  generalize number / 2 ^ (place + 1) = quotient at hhalf ⊢
  generalize number % 2 ^ place = below at hbelow hless ⊢
  generalize number / 2 ^ place = upper at hhalf hbelow ⊢
  have hpower : (0 : ℚ) < 2 ^ place := by positivity
  have hlessQ : (below : ℚ) < 2 ^ place := by exact_mod_cast hless
  have hexact : (number : ℚ) / 2 ^ (place + 1)
      = quotient + (((upper % 2 : Nat) : ℚ) / 2 + below / 2 ^ (place + 1)) := by
    have hnumber : (number : ℚ) = below + 2 ^ place * (2 * quotient + ((upper % 2 : Nat) : ℚ)) := by
      rw [← hbelow]
      conv_lhs => rw [hhalf]
      push_cast
      ring
    rw [hnumber, pow_succ]
    field_simp
    ring
  have hfraction : (0 : ℚ) ≤ below / 2 ^ (place + 1) := by positivity
  have hsmall : (below : ℚ) / 2 ^ (place + 1) < 1 / 2 := by
    rw [pow_succ, div_lt_iff₀ (by positivity)]
    linarith
  have hpositive : below ≠ 0 → (0 : ℚ) < below / 2 ^ (place + 1) := by
    intro h
    have : (0 : ℚ) < below := by exact_mod_cast Nat.pos_of_ne_zero h
    positivity
  rw [hexact]
  unfold NearestInteger
  rcases Nat.mod_two_eq_zero_or_one upper with hbit | hbit
  · -- below a half: down
    rw [if_neg (by omega), hbit]
    push_cast
    rw [show (quotient : ℚ) + (0 / 2 + below / 2 ^ (place + 1)) - (quotient + 0)
      = below / 2 ^ (place + 1) by ring, abs_of_nonneg hfraction]
    exact ⟨hsmall.le, fun h => absurd h hsmall.ne⟩
  · rw [hbit]
    by_cases hup : below ≠ 0 ∨ quotient % 2 = 1
    · -- above a half, or a tie after an odd integer: up
      rw [if_pos ⟨rfl, hup⟩]
      push_cast
      rw [show (quotient : ℚ) + (1 / 2 + below / 2 ^ (place + 1)) - (quotient + 1)
        = -(1 / 2 - below / 2 ^ (place + 1)) by ring, abs_neg, abs_of_pos (by linarith)]
      refine ⟨by linarith, fun htie => ?_⟩
      have hnone : below = 0 := by
        by_contra h
        have := hpositive h
        linarith
      have hodd : quotient % 2 = 1 := hup.resolve_left (not_not.mpr hnone)
      rw [Int.even_iff]
      omega
    · -- a tie after an even integer: down
      rw [if_neg (fun h => hup h.2)]
      rw [not_or, not_not] at hup
      rw [hup.1]
      push_cast
      rw [show (quotient : ℚ) + (1 / 2 + 0 / 2 ^ (place + 1)) - (quotient + 0) = 1 / 2 by ring,
        abs_of_pos (by norm_num)]
      refine ⟨le_rfl, fun _ => ?_⟩
      rw [Int.even_iff]
      omega

theorem shiftRightToNearestEven_spec (natural : Natural) {bits : Nat} (hbits : 0 < bits)
    (hroom : natural.limbs.length < limbCapacity) :
    ∃ rounded, natural.shiftRightToNearestEven bits = some rounded ∧
      NearestInteger ((natural.value : ℚ) / 2 ^ bits) rounded.value := by
  have hnearest := nearestInteger_of_bits natural.value bits hbits
  unfold shiftRightToNearestEven
  by_cases htrivial : (decide (bits = 0) || natural.isZero) = true
  · rw [if_pos htrivial]
    refine ⟨natural, rfl, ?_⟩
    rw [Bool.or_eq_true, decide_eq_true_eq] at htrivial
    have hzero := value_of_isZero (htrivial.resolve_left (by omega))
    rw [hzero]
    norm_num [NearestInteger]
  · rw [if_neg htrivial]
    dsimp only
    have hdecides : (natural.bit (bits - 1) && (natural.below (bits - 1) || (natural.shiftRight bits).isOdd)) = true
        ↔ natural.value / 2 ^ (bits - 1) % 2 = 1 ∧
          (natural.value % 2 ^ (bits - 1) ≠ 0 ∨ natural.value / 2 ^ bits % 2 = 1) := by
      rw [Bool.and_eq_true, Bool.or_eq_true, bit_iff, below_iff, isOdd_iff, shiftRight_value]
    by_cases hup : natural.value / 2 ^ (bits - 1) % 2 = 1 ∧
        (natural.value % 2 ^ (bits - 1) ≠ 0 ∨ natural.value / 2 ^ bits % 2 = 1)
    · rw [if_pos (hdecides.mpr hup)]
      obtain ⟨next, hnext, hvalue⟩ := (natural.shiftRight bits).increment_spec
        (lt_of_le_of_lt (natural.shiftRight_length bits) hroom)
      refine ⟨next, hnext, ?_⟩
      rw [if_pos hup] at hnearest
      rwa [hvalue, shiftRight_value]
    · rw [if_neg (mt hdecides.mp hup)]
      refine ⟨_, rfl, ?_⟩
      rw [if_neg hup] at hnearest
      rwa [shiftRight_value]

end Natural

/-! ## The scaled value -/

theorem powerOfTen_toNat {exponent : Nat} (h : exponent ≤ 9) : (powerOfTen exponent).toNat = 10 ^ exponent := by
  interval_cases exponent <;> rfl

/-- **Powers of ten** take a limb for every nine digits at most. -/
theorem scaleByTens_spec (computed done : Nat) (scaled : Natural)
    (hroom : scaled.limbs.length + (computed - done + 8) / 9 ≤ limbCapacity) :
    ∃ result, scaleByTens computed done scaled = some result ∧
      result.value = scaled.value * 10 ^ (computed - done) ∧
      result.limbs.length ≤ scaled.limbs.length + (computed - done + 8) / 9 := by
  induction hleft : computed - done using Nat.strong_induction_on generalizing done scaled with
  | _ left ih =>
      rw [scaleByTens]
      by_cases hmore : done < computed
      · rw [if_pos hmore]
        dsimp only
        have hstep : (if 9 ≤ computed - done then 9 else computed - done) = min 9 left := by
          rw [hleft]
          split <;> omega
        rw [hstep]
        obtain ⟨product, hproduct, hvalue, hlength⟩ :=
          scaled.multiply_spec (powerOfTen (min 9 left)) (by omega)
        obtain ⟨result, hresult, hscaled, hbound⟩ :=
          ih (computed - (done + min 9 left)) (by omega) (done + min 9 left) product (by omega) rfl
        refine ⟨result, ?_, ?_, by omega⟩
        · rw [hproduct]
          exact hresult
        · rw [hscaled, hvalue, powerOfTen_toNat (Nat.min_le_left _ _), mul_assoc, ← pow_add]
          congr 2
          omega
      · rw [if_neg hmore]
        have hnone : left = 0 := by omega
        subst hnone
        exact ⟨scaled, rfl, by rw [pow_zero, Nat.mul_one], Nat.le_add_right _ _⟩

/-! ## The parts of a double -/

section Double

variable (bits : UInt64)

/-- Neither an infinity nor not-a-number. -/
def IsFinite : Prop := bits.toNat / 2 ^ 52 % 2 ^ 11 ≠ 2 ^ 11 - 1

/-- The magnitude that the bits of a finite double stand for. -/
def magnitude : ℚ :=
  if bits.toNat / 2 ^ 52 % 2 ^ 11 = 0 then ((bits.toNat % 2 ^ 52 : Nat) : ℚ) * 2 ^ (-1074 : Int)
  else ((2 ^ 52 + bits.toNat % 2 ^ 52 : Nat) : ℚ) * 2 ^ (((bits.toNat / 2 ^ 52 % 2 ^ 11 : Nat) : Int) - 1075)

/-- The sign bit. -/
def isNegative : Bool := 2 ^ 63 ≤ bits.toNat

theorem parts_negative : (Parts.ofBits bits).negative = isNegative bits := by
  have hbits := bits.toNat_lt
  have hsign : (bits >>> 63).toNat = bits.toNat / 2 ^ 63 := by
    rw [UInt64.toNat_shiftRight, Nat.shiftRight_eq_div_pow]
    rfl
  show (bits >>> 63 != 0) = decide (2 ^ 63 ≤ bits.toNat)
  rw [Bool.eq_iff_iff, bne_iff_ne, decide_eq_true_eq, ne_eq, ← UInt64.toNat_inj, hsign]
  show ¬ _ = 0 ↔ _
  omega

theorem parts_exponentField : (Parts.ofBits bits).exponentField = bits.toNat / 2 ^ 52 % 2 ^ 11 := by
  show (bits >>> 52 &&& 0x7ff).toNat = _
  rw [UInt64.toNat_and, UInt64.toNat_shiftRight, Nat.shiftRight_eq_div_pow]
  show bits.toNat / 2 ^ 52 &&& 2 ^ 11 - 1 = _
  rw [Nat.and_two_pow_sub_one_eq_mod]

theorem parts_fraction : (Parts.ofBits bits).fraction.toNat = bits.toNat % 2 ^ 52 := by
  show (bits &&& (((1 : UInt64) <<< 52) - 1)).toNat = _
  rw [UInt64.toNat_and]
  show bits.toNat &&& 2 ^ 52 - 1 = _
  rw [Nat.and_two_pow_sub_one_eq_mod]

theorem parts_significand : (Parts.ofBits bits).significand.toNat
    = if bits.toNat / 2 ^ 52 % 2 ^ 11 = 0 then bits.toNat % 2 ^ 52 else 2 ^ 52 + bits.toNat % 2 ^ 52 := by
  have hfraction := parts_fraction bits
  have hless : bits.toNat % 2 ^ 52 < 2 ^ 52 := Nat.mod_lt _ (by norm_num)
  unfold Parts.significand
  rw [parts_exponentField]
  split_ifs
  · exact hfraction
  · rw [UInt64.toNat_or, hfraction]
    show bits.toNat % 2 ^ 52 ||| 2 ^ 52 = _
    have hdisjoint := Nat.two_pow_add_eq_or_of_lt hless 1
    rw [Nat.mul_one] at hdisjoint
    rw [Nat.or_comm, ← hdisjoint]

/-- The significand times a power of two. -/
theorem magnitude_eq : magnitude bits
    = ((Parts.ofBits bits).significand.toNat : ℚ) * 2 ^ (Parts.ofBits bits).exponent := by
  unfold magnitude Parts.exponent
  rw [parts_significand, parts_exponentField]
  split_ifs <;> rfl

/-- **The scaled value.** For every finite double the limbs fit the capacity, and the value is the nearest
integer, the even one at a tie. -/
theorem scaledValue_spec (hfinite : IsFinite bits) {computed : Nat} (hcomputed : computed ≤ exactFractionDigits) :
    ∃ scaled, scaledValue (Parts.ofBits bits) computed = some scaled ∧
      NearestInteger (magnitude bits * 10 ^ computed) scaled.value := by
  have hlimbs := Natural.ofUInt64_length (Parts.ofBits bits).significand
  have hcapacity : limbCapacity = 160 := rfl
  have hdigits : exactFractionDigits = 1074 := rfl
  obtain ⟨tens, htens, hvalue, hlength⟩ := scaleByTens_spec computed 0
    (Natural.ofUInt64 (Parts.ofBits bits).significand) (by omega)
  rw [Natural.ofUInt64_value, Nat.sub_zero] at hvalue
  rw [Nat.sub_zero] at hlength
  have hexponent : (Parts.ofBits bits).exponent ≤ 971 := by
    unfold IsFinite at hfinite
    unfold Parts.exponent
    rw [parts_exponentField]
    split_ifs <;> omega
  unfold scaledValue
  rw [htens, Option.bind_some, magnitude_eq]
  by_cases hsign : 0 ≤ (Parts.ofBits bits).exponent
  · rw [if_pos hsign]
    obtain ⟨scaled, hscaled, hshifted⟩ := tens.shiftLeft_spec
      (Parts.ofBits bits).exponent.toNat (by omega)
    refine ⟨scaled, hscaled, ?_⟩
    have hexact : ((Parts.ofBits bits).significand.toNat : ℚ) * 2 ^ (Parts.ofBits bits).exponent * 10 ^ computed
        = ((scaled.value : Int) : ℚ) := by
      conv_lhs => rw [← Int.toNat_of_nonneg hsign, zpow_natCast]
      rw [hshifted, hvalue]
      push_cast
      ring
    rw [hexact]
    norm_num [NearestInteger]
  · rw [if_neg hsign]
    have hbits : 0 < (-(Parts.ofBits bits).exponent).toNat := by omega
    obtain ⟨scaled, hscaled, hnearest⟩ := tens.shiftRightToNearestEven_spec hbits (by omega)
    refine ⟨scaled, hscaled, ?_⟩
    have hexact : ((Parts.ofBits bits).significand.toNat : ℚ) * 2 ^ (Parts.ofBits bits).exponent * 10 ^ computed
        = (tens.value : ℚ) / 2 ^ (-(Parts.ofBits bits).exponent).toNat := by
      have hpower : (2 : ℚ) ^ (Parts.ofBits bits).exponent
          = (2 ^ (-(Parts.ofBits bits).exponent).toNat)⁻¹ := by
        rw [← zpow_natCast, Int.toNat_of_nonneg (by omega), zpow_neg, inv_inv]
      rw [hpower, hvalue]
      push_cast
      field_simp
    rw [hexact]
    exact hnearest

end Double

end Tala.Runtime.Text
