import Tala.Core.Value
import Tala.Core.Optimizer.Floating

/-!
# `Core.Optimizer.IntegerFolding` — constant primitives

`foldPrimitive` replaces a primitive of literals by a literal. For integers the folding is exact and
complete (`foldPrimitive_integers_iff`): a primitive folds if and only if its mathematical result
(`Denotes`) exists and is a value of the type, and to that result alone.

Powers are computed by repeated squaring that stops as soon as an intermediate product leaves the type.
`powerLoop_folds` shows that it stops too early for no base and no exponent.
-/

namespace Tala.Core.Optimizer.IntegerFolding

open Tala Tala.Core Tala.Core.Optimizer.Floating

/-! ## Literals -/

def integerLiteral : CoreExpression → Option Int
  | .coreLiteral (.coreInteger value) _ => some value
  | _ => none

def isIntegerLiteral (expected : Int) (expression : CoreExpression) : Bool :=
  integerLiteral expression = some expected

def booleanLiteral : CoreExpression → Bool
  | .coreLiteral (.coreBoolean _) _ => true
  | _ => false

def truthValue : CoreExpression → Option Bool
  | .coreLiteral (.coreBoolean value) _ => some value
  | .coreLiteral (.coreInteger value) _ => some (value ≠ 0)
  | expression@(.coreLiteral _ _) => floatingTruthValue expression
  | _ => none

/-- Erasing the evaluation of a variable or a literal loses no effect. -/
def isSimpleValue : CoreExpression → Bool
  | .coreVariable _ _ => true
  | .coreLiteral _ _ => true
  | _ => false

/-- A literal of a result that the type holds. -/
def integer (valueType : Ty) (result : Int) : Option CoreExpression :=
  if integerFitsCoreType valueType result then some (.coreLiteral (.coreInteger result) valueType)
  else none

def boolean (result : Bool) : CoreExpression := .coreLiteral (.coreBoolean result) boolType

/-! ## Evaluation -/

def powerLoop (valueType : Ty) (accumulated factor : Int) (remaining : Nat) : Option CoreExpression :=
  if remaining = 0 then integer valueType accumulated
  else
    let nextProduct := accumulated * factor
    let nextAccumulated := if remaining % 2 = 1 then nextProduct else accumulated
    let canContinue := if remaining % 2 = 1 then integerFitsCoreType valueType nextProduct else true
    let nextRemaining := remaining / 2
    if !canContinue then none
    else if nextRemaining = 0 then integer valueType nextAccumulated
    else
      let squaredFactor := factor * factor
      if integerFitsCoreType valueType squaredFactor then
        powerLoop valueType nextAccumulated squaredFactor nextRemaining
      else none
termination_by remaining

def boundedPower (valueType : Ty) (base exponentValue : Int) : Option CoreExpression :=
  if exponentValue < 0 then none
  else if base = 0 then integer valueType (if exponentValue = 0 then 1 else 0)
  else if base = 1 then integer valueType 1
  else if base = -1 then integer valueType (if exponentValue % 2 = 0 then 1 else -1)
  else powerLoop valueType 1 base exponentValue.toNat

/-- A shift whose amount is less than the width of the type. -/
def shiftInteger (valueType : Ty) (shift : Int → Nat → Int) (value amount : Int) :
    Option CoreExpression :=
  match coreIntegerBitWidth valueType with
  | none => none
  | some width =>
      if amount < 0 ∨ amount ≥ width then none else integer valueType (shift value amount.toNat)

def bitwiseComplement (valueType : Ty) (value : Int) : Option CoreExpression :=
  match coreIntegerBitWidth valueType, coreIntegerIsSigned valueType with
  | some width, some isSigned =>
      integer valueType (if isSigned then value.lnot else value.lnot.land (2 ^ width - 1))
  | _, _ => none

def evaluateBoolean (primitive : CorePrimitive) (arguments : List CoreExpression) :
    Option CoreExpression :=
  match primitive, arguments.mapM truthValue with
  | .coreEqual, some [left, right] =>
      if arguments.all booleanLiteral then some (boolean (left == right)) else none
  | .coreNotEqual, some [left, right] =>
      if arguments.all booleanLiteral then some (boolean (left != right)) else none
  | .coreLogicalNot, some [value] => some (boolean !value)
  | .coreLogicalAnd, some [left, right] => some (boolean (left && right))
  | .coreLogicalOr, some [left, right] => some (boolean (left || right))
  | _, _ => none

def evaluatePrimitive (primitive : CorePrimitive) (arguments : List CoreExpression) (valueType : Ty) :
    Option CoreExpression :=
  -- where the source falls through to the rules for floating-point numbers and Booleans
  let otherwise := (foldFloatingPrimitive primitive arguments valueType).orElse
    fun _ => evaluateBoolean primitive arguments
  match primitive, arguments.mapM integerLiteral with
  | .coreAdd, some [a, b] => integer valueType (a + b)
  | .coreSubtract, some [a, b] => integer valueType (a - b)
  | .coreMultiply, some [a, b] => integer valueType (a * b)
  | .coreDivide, some [a, b] => if b ≠ 0 then integer valueType (a.tdiv b) else otherwise
  | .coreFloorDivide, some [a, b] =>
      if b ≠ 0 then integer valueType (roundedIntegerDivision a b) else otherwise
  | .coreRemainder, some [a, b] => if b ≠ 0 then integer valueType (a.tmod b) else otherwise
  | .coreNegate, some [value] => integer valueType (-value)
  | .corePower, some [base, exponentValue] => boundedPower valueType base exponentValue
  | .coreShiftLeft, some [value, amount] => shiftInteger valueType (fun v n => v <<< n) value amount
  | .coreShiftRight, some [value, amount] => shiftInteger valueType (fun v n => v >>> n) value amount
  | .coreBitwiseNot, some [value] => bitwiseComplement valueType value
  | .coreBitwiseAnd, some [a, b] => integer valueType (a.land b)
  | .coreBitwiseXor, some [a, b] => integer valueType (a.xor b)
  | .coreBitwiseOr, some [a, b] => integer valueType (a.lor b)
  | .coreLessThan, some [a, b] => some (boolean (a < b))
  | .coreLessEqual, some [a, b] => some (boolean (a ≤ b))
  | .coreGreaterThan, some [a, b] => some (boolean (a > b))
  | .coreGreaterEqual, some [a, b] => some (boolean (a ≥ b))
  | .coreEqual, some [a, b] => some (boolean (a = b))
  | .coreNotEqual, some [a, b] => some (boolean (a ≠ b))
  | _, _ => otherwise

/-- The identities that need no literal result. -/
def simplifyIdentity (primitive : CorePrimitive) (arguments : List CoreExpression) (valueType : Ty) :
    CoreExpression :=
  let unchanged := CoreExpression.corePrimitive primitive arguments valueType
  match primitive, arguments with
  | .coreAdd, [left, right] =>
      if isIntegerLiteral 0 right then left else if isIntegerLiteral 0 left then right else unchanged
  | .coreSubtract, [value, zero] => if isIntegerLiteral 0 zero then value else unchanged
  | .coreMultiply, [left, right] =>
      if isIntegerLiteral 1 right then left else if isIntegerLiteral 1 left then right else unchanged
  | .coreDivide, [value, one] => if isIntegerLiteral 1 one then value else unchanged
  | .coreFloorDivide, [value, one] =>
      if isIntegerLiteral 1 one ∧ expressionType value = valueType then value else unchanged
  | .coreRemainder, [value, one] =>
      if isIntegerLiteral 1 one ∧ isSimpleValue value then .coreLiteral (.coreInteger 0) valueType
      else unchanged
  | .coreNegate, [.corePrimitive .coreNegate [value] innerType] =>
      if innerType = valueType then value else unchanged
  | .coreLogicalNot, [.corePrimitive .coreLogicalNot [value] innerType] =>
      if innerType = boolType ∧ expressionType value = boolType then value else unchanged
  | _, _ => unchanged

def foldPrimitive (primitive : CorePrimitive) (arguments : List CoreExpression) (valueType : Ty) :
    CoreExpression :=
  match evaluatePrimitive primitive arguments valueType with
  | some folded => folded
  | none => simplifyIdentity primitive arguments valueType

/-! ## What a primitive denotes -/

/-- Division with the remainder on the side of the dividend. -/
structure TruncatedDivision (dividend divisor quotient remainder : Int) : Prop where
  divisor_ne : divisor ≠ 0
  exact : dividend = divisor * quotient + remainder
  small : remainder.natAbs < divisor.natAbs
  sign : 0 ≤ dividend * remainder

/-- The nearest integer to a quotient, the one away from zero of two that are equally near. -/
structure NearestQuotient (dividend divisor quotient : Int) : Prop where
  divisor_ne : divisor ≠ 0
  near : 2 * (dividend - divisor * quotient).natAbs ≤ divisor.natAbs
  away : 2 * (dividend - divisor * quotient).natAbs = divisor.natAbs →
    dividend.natAbs < (divisor * quotient).natAbs

/-- The mathematical result of a primitive on integers of a layout. A primitive has none where its operation
is undefined. -/
def Denotes (layout : Bool × Nat) (primitive : CorePrimitive) (operands : List Int) (result : Int) : Prop :=
  match primitive, operands with
  | .coreAdd, [a, b] => result = a + b
  | .coreSubtract, [a, b] => result = a - b
  | .coreMultiply, [a, b] => result = a * b
  | .coreDivide, [a, b] => ∃ remainder, TruncatedDivision a b result remainder
  | .coreFloorDivide, [a, b] => NearestQuotient a b result
  | .coreRemainder, [a, b] => ∃ quotient, TruncatedDivision a b quotient result
  | .coreNegate, [a] => result + a = 0
  | .corePower, [a, b] => 0 ≤ b ∧ result = a ^ b.toNat
  | .coreShiftLeft, [a, b] => 0 ≤ b ∧ b < layout.2 ∧ result = a * 2 ^ b.toNat
  | .coreShiftRight, [a, b] =>
      0 ≤ b ∧ b < layout.2 ∧ result * 2 ^ b.toNat ≤ a ∧ a < (result + 1) * 2 ^ b.toNat
  | .coreBitwiseNot, [a] =>
      -- the complement in the bits of the type
      result + a = if layout.1 then -1 else 2 ^ layout.2 - 1
  | .coreBitwiseAnd, [a, b] => ∀ bit, result.testBit bit = (a.testBit bit && b.testBit bit)
  | .coreBitwiseXor, [a, b] => ∀ bit, result.testBit bit = (a.testBit bit ^^ b.testBit bit)
  | .coreBitwiseOr, [a, b] => ∀ bit, result.testBit bit = (a.testBit bit || b.testBit bit)
  | _, _ => False

/-- The primitives with an integer result. -/
def isIntegerPrimitive : CorePrimitive → Bool
  | .coreAdd | .coreSubtract | .coreMultiply | .coreDivide | .coreFloorDivide | .coreRemainder
  | .coreNegate | .corePower | .coreShiftLeft | .coreShiftRight
  | .coreBitwiseAnd | .coreBitwiseXor | .coreBitwiseOr | .coreBitwiseNot => true
  | _ => false

/-! ## Division -/

variable {a : Int}

theorem truncatedDivision_iff {b q r : Int} :
    TruncatedDivision a b q r ↔ b ≠ 0 ∧ q = a.tdiv b ∧ r = a.tmod b := by
  constructor
  · rintro ⟨hb, hexact, hsmall, hsign⟩
    refine ⟨hb, ?_⟩
    rcases lt_trichotomy a 0 with ha | rfl | ha
    · have hr : r ≤ 0 := by
        by_contra hpos
        have := Int.mul_neg_of_neg_of_pos ha (not_le.mp hpos)
        omega
      obtain ⟨hq, hr'⟩ := (@Int.tdiv_tmod_unique' a b r q (by omega) hb).mpr ⟨by omega, by omega, hr⟩
      exact ⟨hq.symm, hr'.symm⟩
    · have hzero : r = 0 := by
        have hdvd : b ∣ r := ⟨-q, by rw [Int.mul_neg]; omega⟩
        exact Int.eq_zero_of_dvd_of_natAbs_lt_natAbs hdvd hsmall
      obtain ⟨hq, hr'⟩ := (@Int.tdiv_tmod_unique 0 b r q (by omega) hb).mpr ⟨by omega, by omega, by omega⟩
      exact ⟨hq.symm, hr'.symm⟩
    · have hr : 0 ≤ r := by
        by_contra hneg
        have := Int.mul_neg_of_pos_of_neg ha (not_le.mp hneg)
        omega
      obtain ⟨hq, hr'⟩ := (@Int.tdiv_tmod_unique a b r q (by omega) hb).mpr ⟨by omega, hr, by omega⟩
      exact ⟨hq.symm, hr'.symm⟩
  · rintro ⟨hb, rfl, rfl⟩
    refine ⟨hb, (Int.mul_tdiv_add_tmod a b).symm, ?_, ?_⟩
    · rw [Int.natAbs_tmod]
      exact Nat.mod_lt _ (Int.natAbs_pos.mpr hb)
    · rcases le_total 0 a with ha | ha
      · exact Int.mul_nonneg ha (Int.tmod_nonneg b ha)
      · have hnonneg := Int.tmod_nonneg b (Int.neg_nonneg_of_nonpos ha)
        rw [Int.neg_tmod] at hnonneg
        exact Int.mul_nonneg_of_nonpos_of_nonpos ha (by omega)

/-- The two parts of a dividend lie on its side of zero. -/
theorem tdiv_parts {a b : Int} (hb : b ≠ 0) :
    a = b * a.tdiv b + a.tmod b ∧ (a.tmod b).natAbs < b.natAbs ∧
      (0 ≤ a → 0 ≤ b * a.tdiv b ∧ 0 ≤ a.tmod b) ∧ (a ≤ 0 → b * a.tdiv b ≤ 0 ∧ a.tmod b ≤ 0) := by
  have hexact := (Int.mul_tdiv_add_tmod a b).symm
  have hle : (a.tmod b).natAbs ≤ a.natAbs := by
    rw [Int.natAbs_tmod]
    exact Nat.mod_le _ _
  refine ⟨hexact, ?_, fun ha => ?_, fun ha => ?_⟩
  · rw [Int.natAbs_tmod]
    exact Nat.mod_lt _ (Int.natAbs_pos.mpr hb)
  · have hr := Int.tmod_nonneg b ha
    omega
  · have hr := Int.tmod_nonneg b (Int.neg_nonneg_of_nonpos ha)
    rw [Int.neg_tmod] at hr
    omega

/-- One step away from zero moves the product by the divisor. -/
theorem mul_signs {a b : Int} : (0 < a → b * (a.sign * b.sign) = b.natAbs) ∧
    (a < 0 → b * (a.sign * b.sign) = -b.natAbs) := by
  constructor
  · intro ha
    rw [Int.sign_eq_one_of_pos ha, Int.one_mul, Int.mul_sign_self]
  · intro ha
    rw [Int.sign_eq_neg_one_of_neg ha, Int.neg_one_mul, Int.mul_neg, Int.mul_sign_self]

theorem mul_roundedIntegerDivision (a b : Int) :
    b * roundedIntegerDivision a b = if 2 * (a.tmod b).natAbs ≥ b.natAbs then
      b * a.tdiv b + b * (a.sign * b.sign) else b * a.tdiv b := by
  show b * (if 2 * ((a.tmod b).natAbs : Int) ≥ b.natAbs then _ else _) = _
  by_cases h : 2 * (a.tmod b).natAbs ≥ b.natAbs
  · rw [if_pos h, if_pos (by omega), Int.mul_add]
  · rw [if_neg h, if_neg (by omega)]

theorem roundedIntegerDivision_nearest {b : Int} (hb : b ≠ 0) :
    NearestQuotient a b (roundedIntegerDivision a b) := by
  obtain ⟨hexact, hsmall, hup, hdown⟩ := @tdiv_parts a b hb
  obtain ⟨hpos, hneg⟩ := @mul_signs a b
  have hvalue := mul_roundedIntegerDivision a b
  have hone : b.natAbs ≠ 0 := Int.natAbs_ne_zero.mpr hb
  suffices hfacts : 2 * (a - b * roundedIntegerDivision a b).natAbs ≤ b.natAbs ∧
      (2 * (a - b * roundedIntegerDivision a b).natAbs = b.natAbs →
        a.natAbs < (b * roundedIntegerDivision a b).natAbs) from ⟨hb, hfacts.1, hfacts.2⟩
  generalize b * roundedIntegerDivision a b = product at hvalue ⊢
  rcases lt_trichotomy a 0 with ha | ha | ha
  · have hstep := hneg ha
    have hside := hdown (Int.le_of_lt ha)
    clear hpos hneg hup hdown
    split at hvalue <;> omega
  · have hside := hdown (Int.le_of_eq ha)
    have hside' := hup (Int.le_of_eq ha.symm)
    clear hpos hneg hup hdown
    split at hvalue <;> omega
  · have hstep := hpos ha
    have hside := hup (Int.le_of_lt ha)
    clear hpos hneg hup hdown
    split at hvalue <;> omega

/-- Of two neighbours the one farther from zero is so by a whole divisor. -/
theorem not_nearest_neighbours {b q : Int} (h : NearestQuotient a b q) : ¬ NearestQuotient a b (q + 1) := by
  intro h'
  have hb := Int.natAbs_pos.mpr h.divisor_ne
  have hnear := h.near
  have haway := h.away
  have hnear' := h'.near
  have haway' := h'.away
  have hgrows : (b * (q + 1)).natAbs = (b * q).natAbs + b.natAbs ∨
      (b * q).natAbs = (b * (q + 1)).natAbs + b.natAbs := by
    simp only [Int.natAbs_mul]
    rcases le_or_gt 0 q with hq | hq
    · left
      rw [show (q + 1).natAbs = q.natAbs + 1 by omega, Nat.mul_add, Nat.mul_one]
    · right
      rw [show q.natAbs = (q + 1).natAbs + 1 by omega, Nat.mul_add, Nat.mul_one]
  rw [Int.mul_add, Int.mul_one] at *
  omega

theorem NearestQuotient.unique {a b q q' : Int} (h : NearestQuotient a b q) (h' : NearestQuotient a b q') :
    q = q' := by
  have hdistance : (q' - q).natAbs ≤ 1 := by
    by_contra hfar
    have hproduct : 2 * b.natAbs ≤ (b * (q' - q)).natAbs := by
      rw [Int.natAbs_mul, Nat.mul_comm]
      exact Nat.mul_le_mul_left _ (by omega)
    rw [Int.mul_sub] at hproduct
    have hb := Int.natAbs_pos.mpr h.divisor_ne
    have hnear := h.near
    have hnear' := h'.near
    omega
  rcases lt_trichotomy q q' with hlt | heq | hlt
  · obtain rfl : q' = q + 1 := by omega
    exact absurd h' (not_nearest_neighbours h)
  · exact heq
  · obtain rfl : q = q' + 1 := by omega
    exact absurd h (not_nearest_neighbours h')

/-- Halves go away from zero: the quotient moves one step where the remainder is half of the divisor or
more. -/
theorem nearestQuotient_iff {b q : Int} : NearestQuotient a b q ↔ b ≠ 0 ∧ q = roundedIntegerDivision a b := by
  constructor
  · intro h
    exact ⟨h.divisor_ne, h.unique (roundedIntegerDivision_nearest h.divisor_ne)⟩
  · rintro ⟨hb, rfl⟩
    exact roundedIntegerDivision_nearest hb

/-! ## Bits -/

/-- An integer is known by its bits. -/
theorem eq_of_testBit {m n : Int} (h : ∀ bit, m.testBit bit = n.testBit bit) : m = n := by
  -- far up the bits of one sign are clear and those of the other are set
  have hmixed : ∀ a b : Nat, ¬ ∀ bit, (a.testBit bit) = !(b.testBit bit) := by
    intro a b hall
    have ha := Nat.testBit_lt_two_pow (lt_of_lt_of_le Nat.lt_two_pow_self
      (Nat.pow_le_pow_right (by decide) (Nat.le_add_right a b)))
    have hb := Nat.testBit_lt_two_pow (lt_of_lt_of_le Nat.lt_two_pow_self
      (Nat.pow_le_pow_right (by decide) (Nat.le_add_left b a)))
    have hfar := hall (a + b)
    rw [ha, hb] at hfar
    cases hfar
  cases m with
  | ofNat a =>
      cases n with
      | ofNat b => exact congrArg Int.ofNat (Nat.eq_of_testBit_eq h)
      | negSucc b => exact absurd h (hmixed a b)
  | negSucc a =>
      cases n with
      | ofNat b => exact absurd (fun bit => (h bit).symm) (hmixed b a)
      | negSucc b =>
          refine congrArg Int.negSucc (Nat.eq_of_testBit_eq fun bit => ?_)
          exact Bool.not_inj (h bit)

theorem land_iff {b r : Int} : (∀ bit, r.testBit bit = (a.testBit bit && b.testBit bit)) ↔ r = a.land b := by
  constructor
  · intro h
    exact eq_of_testBit fun bit => by rw [h, Int.testBit_land]
  · rintro rfl
    exact Int.testBit_land a b

theorem lor_iff {b r : Int} : (∀ bit, r.testBit bit = (a.testBit bit || b.testBit bit)) ↔ r = a.lor b := by
  constructor
  · intro h
    exact eq_of_testBit fun bit => by rw [h, Int.testBit_lor]
  · rintro rfl
    exact Int.testBit_lor a b

theorem xor_iff {b r : Int} : (∀ bit, r.testBit bit = (a.testBit bit ^^ b.testBit bit)) ↔ r = a.xor b := by
  constructor
  · intro h
    exact eq_of_testBit fun bit => by rw [h, Int.testBit_lxor]
  · rintro rfl
    exact Int.testBit_lxor a b

theorem lnot_eq (a : Int) : a.lnot = -1 - a := by
  cases a with
  | ofNat n =>
      show Int.negSucc n = -1 - (n : Int)
      omega
  | negSucc n =>
      show (n : Int) = -1 - Int.negSucc n
      omega

/-- Cut to the width of an unsigned type, the complement of a value of the type is what is missing to the
greatest value. -/
theorem land_lnot {width : Nat} (hlow : 0 ≤ a) (hhigh : a ≤ 2 ^ width - 1) :
    a.lnot.land (2 ^ width - 1) = 2 ^ width - 1 - a := by
  obtain ⟨n, rfl⟩ := Int.eq_ofNat_of_zero_le hlow
  have hpow : (2 : Int) ^ width = ((2 ^ width : Nat) : Int) := by
    rw [Int.natCast_pow]
    rfl
  rw [hpow] at hhigh ⊢
  have hn : n < 2 ^ width := by omega
  have hmask : ((2 ^ width : Nat) : Int) - 1 = ((2 ^ width - 1 : Nat) : Int) := by omega
  have hvalue : ((2 ^ width : Nat) : Int) - 1 - (n : Int) = ((2 ^ width - (n + 1) : Nat) : Int) := by omega
  rw [hmask] at *
  rw [hmask, hvalue]
  show ((Nat.ldiff (2 ^ width - 1) n : Nat) : Int) = _
  congr 1
  apply Nat.eq_of_testBit_eq
  intro bit
  rw [Nat.testBit_ldiff, Nat.testBit_two_pow_sub_one, Nat.testBit_two_pow_sub_succ hn]

/-! ## Powers -/

section Folding

variable {valueType : Ty} {layout : Bool × Nat}

/-- The outcome of a folding: a literal of a result that fits, or nothing where no such result exists. -/
def Folds (valueType : Ty) (denoted : Int → Prop) (outcome : Option CoreExpression) : Prop :=
  ∀ folded, outcome = some folded ↔
    ∃ result, denoted result ∧ integerFitsCoreType valueType result = true ∧
      folded = .coreLiteral (.coreInteger result) valueType

variable {denoted : Int → Prop}

/-- `integer` folds to the one result there is. -/
theorem folds_integer {value : Int} (h : ∀ result, denoted result ↔ result = value) :
    Folds valueType denoted (integer valueType value) := by
  intro folded
  unfold integer
  split
  · next hfits =>
      constructor
      · intro heq
        exact ⟨value, (h value).mpr rfl, hfits, (Option.some.inj heq).symm⟩
      · rintro ⟨result, hresult, -, rfl⟩
        rw [(h result).mp hresult]
  · next hfits =>
      constructor
      · intro heq
        cases heq
      · rintro ⟨result, hresult, hfits', -⟩
        rw [(h result).mp hresult] at hfits'
        exact absurd hfits' hfits

theorem folds_none (h : ∀ result, denoted result → ¬ integerFitsCoreType valueType result = true) :
    Folds valueType denoted none := by
  intro folded
  constructor
  · intro heq
    cases heq
  · rintro ⟨result, hresult, hfits, -⟩
    exact absurd hfits (h result hresult)

section Layout

variable (hlayout : integerLayout? valueType = some layout)

include hlayout

/-- Once a product has left the type, no later factor brings it back: the factors that follow are squares. -/
theorem not_fits_mul {product factor : Int}
    (hproduct : ¬ integerFitsCoreType valueType product = true) (hfactor : 1 ≤ factor) :
    ¬ integerFitsCoreType valueType (product * factor) = true := by
  rw [integerFitsCoreType_iff hlayout] at hproduct ⊢
  have hmin := layoutMinimum_nonpos layout
  have hmax := layoutMaximum_nonneg layout
  rintro ⟨hlow, hhigh⟩
  apply hproduct
  rcases le_total 0 product with hsign | hsign
  · have := Int.mul_le_mul_of_nonneg_left hfactor hsign
    rw [Int.mul_one] at this
    exact ⟨by omega, by omega⟩
  · have := Int.mul_le_mul_of_nonpos_left hsign hfactor
    rw [Int.mul_one] at this
    exact ⟨by omega, by omega⟩

/-- A square above the type leaves no room for any multiple that is not zero or minus itself. -/
theorem not_fits_of_square {accumulated square : Int}
    (hzero : accumulated ≠ 0) (hone : accumulated ≠ -1) (hpos : 0 ≤ square)
    (hsquare : ¬ integerFitsCoreType valueType square = true) :
    ¬ integerFitsCoreType valueType (accumulated * square) = true := by
  have hmagnitude : -layoutMagnitude layout ≤ layoutMinimum layout := by
    have := layoutMagnitude_pos layout
    unfold layoutMinimum
    split <;> omega
  have hmin := layoutMinimum_nonpos layout
  rw [integerFitsCoreType_iff hlayout] at hsquare ⊢
  have habove : layoutMaximum layout < square := by omega
  have hmax : layoutMaximum layout = layoutMagnitude layout - 1 := rfl
  rintro ⟨hlow, hhigh⟩
  rcases Int.lt_or_gt_of_ne hzero with hneg | hpos'
  · have hmore := Int.mul_le_mul_of_nonneg_right (show accumulated ≤ -2 by omega) hpos
    omega
  · have hmore := Int.mul_le_mul_of_nonneg_right (show 1 ≤ accumulated by omega) hpos
    omega

/-- The rest of the loop after a product: square the factor, or give up where the square leaves the type. -/
theorem folds_square {accumulated factor : Int} {half : Nat}
    (hzero : accumulated ≠ 0) (hone : accumulated ≠ -1) (hfactor : factor ≠ 0) (hhalf : half ≠ 0)
    (hloop : Folds valueType (· = accumulated * (factor * factor) ^ half)
      (powerLoop valueType accumulated (factor * factor) half)) :
    Folds valueType (· = accumulated * (factor * factor) ^ half)
      (if integerFitsCoreType valueType (factor * factor) then
        powerLoop valueType accumulated (factor * factor) half else none) := by
  by_cases hsquare : integerFitsCoreType valueType (factor * factor) = true
  · rw [if_pos hsquare]
    exact hloop
  · rw [if_neg hsquare]
    apply folds_none
    rintro _ rfl
    have hpos : 0 < factor * factor := by
      have := mul_self_nonneg factor
      have := Int.mul_ne_zero hfactor hfactor
      omega
    obtain ⟨rest, rfl⟩ := Nat.exists_eq_succ_of_ne_zero hhalf
    have hfirst := not_fits_of_square hlayout hzero hone (Int.le_of_lt hpos) hsquare
    rw [Int.pow_succ', ← Int.mul_assoc]
    exact not_fits_mul hlayout hfirst (Int.pow_pos hpos)

/-- **The power loop is exact.** What it has accumulated is neither zero nor minus one, so that an
intermediate square out of the type leaves no way for the power to fit. -/
theorem powerLoop_folds (remaining : Nat)
    {accumulated factor : Int} (hzero : accumulated ≠ 0) (hone : accumulated ≠ -1)
    (hfactor : 2 ≤ factor.natAbs) :
    Folds valueType (· = accumulated * factor ^ remaining)
      (powerLoop valueType accumulated factor remaining) := by
  induction remaining using Nat.strong_induction_on generalizing accumulated factor with
  | h remaining ih =>
      have hsquare : 2 ≤ (factor * factor).natAbs := by
        rw [Int.natAbs_mul]
        exact le_trans hfactor (Nat.le_mul_of_pos_left _ (by omega))
      have hne : factor ≠ 0 := by omega
      rw [powerLoop]
      by_cases hend : remaining = 0
      · rw [if_pos hend, hend]
        exact folds_integer fun result => by rw [Int.pow_zero, Int.mul_one]
      · rw [if_neg hend]
        have hless : remaining / 2 < remaining := Nat.div_lt_self (by omega) (by decide)
        rcases Nat.mod_two_eq_zero_or_one remaining with heven | hodd
        · have hpower : accumulated * factor ^ remaining
              = accumulated * (factor * factor) ^ (remaining / 2) := by
            rw [← pow_two, ← pow_mul]
            congr 2
            omega
          have hhalf : remaining / 2 ≠ 0 := by omega
          simp only [heven, hpower, hhalf, Nat.zero_ne_one, Bool.not_true, Bool.false_eq_true, if_false]
          exact folds_square hlayout hzero hone hne hhalf (ih _ hless hzero hone hsquare)
        · have hpower : accumulated * factor ^ remaining
              = accumulated * factor * (factor * factor) ^ (remaining / 2) := by
            rw [Int.mul_assoc, ← pow_two factor, ← pow_mul, ← pow_succ']
            congr 2
            omega
          simp only [hodd, hpower, if_true]
          by_cases hproduct : integerFitsCoreType valueType (accumulated * factor) = true
          · simp only [hproduct, Bool.not_true, Bool.false_eq_true, if_false]
            by_cases hhalf : remaining / 2 = 0
            · rw [if_pos hhalf, hhalf]
              exact folds_integer fun result => by rw [Int.pow_zero, Int.mul_one]
            · rw [if_neg hhalf]
              have hgrows : 2 ≤ (accumulated * factor).natAbs := by
                rw [Int.natAbs_mul]
                exact le_trans hfactor (Nat.le_mul_of_pos_left _ (by omega))
              have hzero' : accumulated * factor ≠ 0 := by omega
              have hone' : accumulated * factor ≠ -1 := by omega
              exact folds_square hlayout hzero' hone' hne hhalf (ih _ hless hzero' hone' hsquare)
          · simp only [hproduct, Bool.not_false, if_true]
            apply folds_none
            rintro _ rfl
            have hpos : 0 < factor * factor := by
              have := mul_self_nonneg factor
              omega
            exact not_fits_mul hlayout hproduct (Int.pow_pos hpos)

/-- The bases that the loop would not leave are answered before it. -/
theorem boundedPower_folds (base exponent : Int) :
    Folds valueType (fun result => 0 ≤ exponent ∧ result = base ^ exponent.toNat)
      (boundedPower valueType base exponent) := by
  unfold boundedPower
  split
  · next hneg => exact folds_none fun result ⟨hnonneg, _⟩ => absurd hnonneg (by omega)
  · next hneg =>
      have hnonneg : 0 ≤ exponent := by omega
      have hand : ∀ result value : Int, base ^ exponent.toNat = value →
          (0 ≤ exponent ∧ result = base ^ exponent.toNat ↔ result = value) := by
        intro result value hvalue
        rw [hvalue]
        exact and_iff_right hnonneg
      split
      · next hzero =>
          apply folds_integer
          intro result
          apply hand
          rw [hzero]
          by_cases hexponent : exponent = 0
          · rw [if_pos hexponent, hexponent]
            rfl
          · rw [if_neg hexponent]
            exact Int.zero_pow (by omega)
      · split
        · next hone =>
            apply folds_integer
            intro result
            apply hand
            rw [hone, Int.one_pow]
        · split
          · next hminus =>
              apply folds_integer
              intro result
              apply hand
              rw [hminus]
              by_cases heven : exponent % 2 = 0
              · rw [if_pos heven]
                exact Even.neg_one_pow (Nat.even_iff.mpr (by omega))
              · rw [if_neg heven]
                exact Odd.neg_one_pow (Nat.odd_iff.mpr (by omega))
          · next hzero hone hminus =>
              have hloop := @powerLoop_folds valueType layout hlayout exponent.toNat 1 base
                (by decide) (by decide) (by omega)
              intro folded
              rw [hloop folded]
              simp only [Int.one_mul, hnonneg, true_and]

/-! ## The rules for one primitive -/

theorem shiftInteger_folds {shift : Int → Nat → Int}
    {b : Int} (hdenoted : ∀ result, denoted result ↔ result = shift a b.toNat) :
    Folds valueType (fun result => 0 ≤ b ∧ b < layout.2 ∧ denoted result)
      (shiftInteger valueType shift a b) := by
  unfold shiftInteger coreIntegerBitWidth
  rw [hlayout]
  show Folds _ _ (if b < 0 ∨ b ≥ layout.2 then none else _)
  split
  · next hout => exact folds_none fun result ⟨hlow, hhigh, _⟩ => absurd hout (by omega)
  · next hin =>
      apply folds_integer
      intro result
      rw [hdenoted, and_iff_right (by omega), and_iff_right (by omega)]

end Layout

theorem shiftRight_iff {result : Int} {amount : Nat} :
    result * 2 ^ amount ≤ a ∧ a < (result + 1) * 2 ^ amount ↔ result = a >>> amount := by
  have hpos : (0 : Int) < 2 ^ amount := Int.pow_pos (by decide)
  have hshift : a >>> amount = a / 2 ^ amount := by
    rw [Int.shiftRight_eq_div_pow, Int.natCast_pow]
    rfl
  rw [hshift, ← Int.le_ediv_iff_mul_le hpos, ← Int.ediv_lt_iff_lt_mul hpos]
  omega

theorem bitwiseComplement_folds (hlayout : integerLayout? valueType = some layout)
    (ha : integerFitsCoreType valueType a = true) :
    Folds valueType (Denotes layout .coreBitwiseNot [a]) (bitwiseComplement valueType a) := by
  unfold bitwiseComplement coreIntegerBitWidth coreIntegerIsSigned
  rw [hlayout]
  apply folds_integer
  intro result
  rw [integerFitsCoreType_iff hlayout] at ha
  show (result + a = if layout.1 then -1 else 2 ^ layout.2 - 1) ↔
    result = if layout.1 then a.lnot else a.lnot.land (2 ^ layout.2 - 1)
  cases hsigned : layout.1 with
  | true =>
      simp only [if_true, lnot_eq]
      omega
  | false =>
      simp only [layoutMinimum, layoutMaximum, layoutMagnitude, hsigned, Bool.false_eq_true, if_false,
        Nat.sub_zero] at ha ⊢
      rw [land_lnot ha.1 ha.2]
      omega

/-- How many operands a primitive takes. -/
def arity : CorePrimitive → Nat
  | .coreNegate | .coreBitwiseNot | .coreLogicalNot => 1
  | _ => 2

def integerLiterals (valueType : Ty) (operands : List Int) : List CoreExpression :=
  operands.map fun value => .coreLiteral (.coreInteger value) valueType

theorem mapM_integerLiteral (operands : List Int) :
    (integerLiterals valueType operands).mapM integerLiteral = some operands := by
  induction operands with
  | nil => rfl
  | cons value rest ih =>
      unfold integerLiterals at ih ⊢
      rw [List.map_cons, List.mapM_cons, ih]
      rfl

section Evaluated

variable (hlayout : integerLayout? valueType = some layout)

include hlayout

/-- The rules for floating-point numbers say nothing about operands of the type. -/
theorem foldFloatingPrimitive_typed (primitive : CorePrimitive) {arguments : List CoreExpression}
    (htypes : ∀ argument ∈ arguments, expressionType argument = valueType) :
    foldFloatingPrimitive primitive arguments valueType = none := by
  have hformat : formatFor valueType = none := by
    unfold integerLayout? at hlayout
    unfold formatFor
    split
    iterate 4
      · next hname =>
        rw [hname, show integerLayouts.lookup _ = none by decide] at hlayout
        cases hlayout
    · rfl
  have hnone : floatingOperands arguments = none := by
    cases arguments with
    | nil => rfl
    | cons first rest =>
        unfold floatingOperands
        dsimp only
        rw [htypes first List.mem_cons_self, hformat]
  cases primitive <;>
    simp only [foldFloatingPrimitive, foldArithmetic, foldNegation, foldRoundedDivision, foldComparison, hnone]

theorem foldFloatingPrimitive_integers (primitive : CorePrimitive) (operands : List Int) :
    foldFloatingPrimitive primitive (integerLiterals valueType operands) valueType = none := by
  apply foldFloatingPrimitive_typed hlayout
  intro argument hargument
  obtain ⟨value, _, rfl⟩ := List.mem_map.mp hargument
  rfl

variable {primitive : CorePrimitive} {operands : List Int}

/-- Nothing folds a primitive of the wrong number of integers. -/
theorem evaluatePrimitive_arity
    (hprimitive : isIntegerPrimitive primitive = true) (harity : operands.length ≠ arity primitive) :
    evaluatePrimitive primitive (integerLiterals valueType operands) valueType = none ∧
      ∀ result, ¬ Denotes layout primitive operands result := by
  unfold evaluatePrimitive evaluateBoolean
  dsimp only
  rw [mapM_integerLiteral, foldFloatingPrimitive_integers hlayout]
  rcases operands with _ | ⟨a, _ | ⟨b, _ | ⟨c, rest⟩⟩⟩ <;> cases primitive <;>
    first
    | exact absurd hprimitive (by decide)
    | exact absurd rfl harity
    | exact ⟨rfl, fun result h => h⟩

/-- The operations that the source leaves to the later rules fold by none of them. -/
theorem evaluatePrimitive_undefined
    (hprimitive : isIntegerPrimitive primitive = true) (operands : List Int) :
    ((foldFloatingPrimitive primitive (integerLiterals valueType operands) valueType).orElse
      fun _ => evaluateBoolean primitive (integerLiterals valueType operands)) = none := by
  rw [foldFloatingPrimitive_integers hlayout]
  show evaluateBoolean primitive _ = none
  unfold evaluateBoolean
  cases primitive <;> first | exact absurd hprimitive (by decide) | rfl

/-- **An integer primitive evaluates to what it denotes**, where that fits. -/
theorem evaluatePrimitive_folds
    (hprimitive : isIntegerPrimitive primitive = true)
    (hoperands : ∀ value ∈ operands, integerFitsCoreType valueType value = true) :
    Folds valueType (Denotes layout primitive operands)
      (evaluatePrimitive primitive (integerLiterals valueType operands) valueType) := by
  by_cases harity : operands.length = arity primitive
  · have hundefined := evaluatePrimitive_undefined hlayout hprimitive operands
    have hdivision : ∀ {denoted : Int → Prop} {b value : Int},
        (∀ result, denoted result ↔ b ≠ 0 ∧ result = value) →
          Folds valueType denoted (if b ≠ 0 then integer valueType value else none) := by
      intro denoted b value hdenoted
      split
      · next hb => exact folds_integer fun result => (hdenoted result).trans (and_iff_right hb)
      · next hb => exact folds_none fun result hresult => absurd ((hdenoted result).mp hresult).1 hb
    unfold evaluatePrimitive
    dsimp only
    rw [mapM_integerLiteral, hundefined]
    rcases operands with _ | ⟨a, _ | ⟨b, _ | ⟨c, rest⟩⟩⟩
    · cases primitive <;> cases harity
    · cases primitive <;> first | exact absurd hprimitive (by decide) | (cases harity; done) | skip
      case coreNegate =>
        apply folds_integer
        intro result
        show result + a = 0 ↔ result = -a
        omega
      case coreBitwiseNot => exact bitwiseComplement_folds hlayout (hoperands a List.mem_cons_self)
    · cases primitive <;> first | exact absurd hprimitive (by decide) | (cases harity; done) | skip
      case coreAdd => exact folds_integer fun result => Iff.rfl
      case coreSubtract => exact folds_integer fun result => Iff.rfl
      case coreMultiply => exact folds_integer fun result => Iff.rfl
      case coreDivide =>
        apply hdivision
        intro result
        constructor
        · rintro ⟨remainder, h⟩
          exact ⟨h.divisor_ne, (truncatedDivision_iff.mp h).2.1⟩
        · rintro ⟨hb, rfl⟩
          exact ⟨_, truncatedDivision_iff.mpr ⟨hb, rfl, rfl⟩⟩
      case coreFloorDivide => exact hdivision fun result => nearestQuotient_iff
      case coreRemainder =>
        apply hdivision
        intro result
        constructor
        · rintro ⟨quotient, h⟩
          exact ⟨h.divisor_ne, (truncatedDivision_iff.mp h).2.2⟩
        · rintro ⟨hb, rfl⟩
          exact ⟨_, truncatedDivision_iff.mpr ⟨hb, rfl, rfl⟩⟩
      case corePower => exact boundedPower_folds hlayout a b
      case coreShiftLeft =>
        apply shiftInteger_folds hlayout
        intro result
        rw [Int.shiftLeft_eq]
      case coreShiftRight => exact shiftInteger_folds hlayout fun result => shiftRight_iff
      case coreBitwiseAnd => exact folds_integer fun result => land_iff
      case coreBitwiseXor => exact folds_integer fun result => xor_iff
      case coreBitwiseOr => exact folds_integer fun result => lor_iff
    · cases primitive <;> cases harity
  · obtain ⟨hnone, hdenotes⟩ := evaluatePrimitive_arity hlayout hprimitive harity
    rw [hnone]
    exact folds_none fun result hresult => absurd hresult (hdenotes result)

/-- The identities simplify no literals that did not fold. -/
theorem simplifyIdentity_integers
    (hprimitive : isIntegerPrimitive primitive = true)
    (hoperands : ∀ value ∈ operands, integerFitsCoreType valueType value = true)
    (hnone : evaluatePrimitive primitive (integerLiterals valueType operands) valueType = none) :
    simplifyIdentity primitive (integerLiterals valueType operands) valueType
      = .corePrimitive primitive (integerLiterals valueType operands) valueType := by
  -- an identity leaves an operand or zero, and those fit
  have hfolds := evaluatePrimitive_folds hlayout hprimitive hoperands
  rw [hnone] at hfolds
  have hno : ∀ result, Denotes layout primitive operands result →
      ¬ integerFitsCoreType valueType result = true := by
    intro result hresult hfits
    cases (hfolds _).mpr ⟨result, hresult, hfits, rfl⟩
  rcases operands with _ | ⟨a, _ | ⟨b, _ | ⟨c, rest⟩⟩⟩
  · cases primitive <;> rfl
  · cases primitive <;> rfl
  · have ha := hoperands a List.mem_cons_self
    have hb := hoperands b (List.mem_cons_of_mem _ List.mem_cons_self)
    have hliteral : ∀ expected value, isIntegerLiteral expected (.coreLiteral (.coreInteger value) valueType)
        = decide (value = expected) := by
      intro expected value
      simp [isIntegerLiteral, integerLiteral]
    cases primitive <;> first | rfl | exact absurd hprimitive (by decide) | skip
    case coreAdd =>
      have hright : ¬ b = 0 := fun hzero => hno a (by show a = a + b; omega) ha
      have hleft : ¬ a = 0 := fun hzero => hno b (by show b = a + b; omega) hb
      simp only [integerLiterals, List.map_cons, List.map_nil, simplifyIdentity, hliteral, hright, hleft]
      rfl
    case coreSubtract =>
      have hright : ¬ b = 0 := fun hzero => hno a (by show a = a - b; omega) ha
      simp only [integerLiterals, List.map_cons, List.map_nil, simplifyIdentity, hliteral, hright]
      rfl
    case coreMultiply =>
      have hright : ¬ b = 1 := fun hone => hno a (by show a = a * b; rw [hone, Int.mul_one]) ha
      have hleft : ¬ a = 1 := fun hone => hno b (by show b = a * b; rw [hone, Int.one_mul]) hb
      simp only [integerLiterals, List.map_cons, List.map_nil, simplifyIdentity, hliteral, hright, hleft]
      rfl
    case coreDivide =>
      have hright : ¬ b = 1 := fun hone =>
        hno a ⟨0, truncatedDivision_iff.mpr ⟨by omega, by rw [hone, Int.tdiv_one], by rw [hone, Int.tmod_one]⟩⟩ ha
      simp only [integerLiterals, List.map_cons, List.map_nil, simplifyIdentity, hliteral, hright]
      rfl
    case coreFloorDivide =>
      have hright : ¬ b = 1 := fun hone => hno a ⟨by omega, by simp [hone], by simp [hone]⟩ ha
      simp only [integerLiterals, List.map_cons, List.map_nil, simplifyIdentity, hliteral, hright]
      rfl
    case coreRemainder =>
      have hright : ¬ b = 1 := fun hone =>
        hno 0 ⟨a, truncatedDivision_iff.mpr ⟨by omega, by rw [hone, Int.tdiv_one], by rw [hone, Int.tmod_one]⟩⟩
          (integerFitsCoreType_zero (isCoreIntegerType_iff_layout.mpr ⟨layout, hlayout⟩))
      simp only [integerLiterals, List.map_cons, List.map_nil, simplifyIdentity, hliteral, hright]
      rfl
  · cases primitive <;> rfl

end Evaluated

/-- **Integer folding is exact and complete.** A primitive of values of an integer type becomes a literal if
and only if its mathematical result exists and fits the type, and then it becomes that result; a power is
found for every base and exponent. -/
theorem foldPrimitive_integers_iff (hlayout : integerLayout? valueType = some layout) :
    (∀ primitive, isIntegerPrimitive primitive = true → ∀ operands : List Int,
      (∀ value ∈ operands, integerFitsCoreType valueType value = true) →
        ∀ literal literalType,
          foldPrimitive primitive (integerLiterals valueType operands) valueType
              = .coreLiteral literal literalType ↔
            ∃ result, Denotes layout primitive operands result ∧ integerFitsCoreType valueType result = true ∧
              literal = .coreInteger result ∧ literalType = valueType) ∧
    (∀ base exponent power, boundedPower valueType base exponent
        = some (.coreLiteral (.coreInteger power) valueType) ↔
      0 ≤ exponent ∧ power = base ^ exponent.toNat ∧ integerFitsCoreType valueType power = true) := by
  constructor
  · intro primitive hprimitive operands hoperands literal literalType
    have hfolds := evaluatePrimitive_folds hlayout hprimitive hoperands
    unfold foldPrimitive
    cases hfolded : evaluatePrimitive primitive (integerLiterals valueType operands) valueType with
    | none =>
        rw [simplifyIdentity_integers hlayout hprimitive hoperands hfolded]
        rw [hfolded] at hfolds
        constructor
        · intro heq
          cases heq
        · rintro ⟨result, hresult, hfits, -, -⟩
          cases (hfolds _).mpr ⟨result, hresult, hfits, rfl⟩
    | some folded =>
        obtain ⟨result, hresult, hfits, rfl⟩ := (hfolds folded).mp hfolded
        constructor
        · intro heq
          cases heq
          exact ⟨result, hresult, hfits, rfl, rfl⟩
        · rintro ⟨result', hresult', hfits', rfl, rfl⟩
          have hother := (hfolds _).mpr ⟨result', hresult', hfits', rfl⟩
          rw [hfolded] at hother
          exact Option.some.inj hother
  · intro base exponent power
    rw [boundedPower_folds hlayout base exponent]
    constructor
    · rintro ⟨result, ⟨hnonneg, hpower⟩, hfits, heq⟩
      cases heq
      exact ⟨hnonneg, hpower, hfits⟩
    · rintro ⟨hnonneg, hpower, hfits⟩
      exact ⟨power, ⟨hnonneg, hpower⟩, hfits, rfl⟩

/-- Half a step away from zero, and a power that is the least value of its type. -/
theorem foldPrimitive_integers_byte :
    foldPrimitive .coreFloorDivide (integerLiterals (.namedType ["byte"] []) [-7, 2]) (.namedType ["byte"] [])
        = .coreLiteral (.coreInteger (-4)) (.namedType ["byte"] []) ∧
      foldPrimitive .corePower (integerLiterals (.namedType ["byte"] []) [-2, 7]) (.namedType ["byte"] [])
        = .coreLiteral (.coreInteger (-128)) (.namedType ["byte"] []) := by
  have hfolds := (@foldPrimitive_integers_iff (.namedType ["byte"] []) (true, 8) (by decide)).1
  constructor
  · refine (hfolds .coreFloorDivide rfl [-7, 2] (by decide) _ _).mpr ⟨-4, ?_, by decide, rfl, rfl⟩
    exact ⟨by decide, by decide, by decide⟩
  · refine (hfolds .corePower rfl [-2, 7] (by decide) _ _).mpr ⟨-128, ?_, by decide, rfl, rfl⟩
    exact ⟨by decide, by decide⟩

end Folding

end Tala.Core.Optimizer.IntegerFolding
