import Tala.Core.Desugarer
import Tala.Core.Optimizer.IntegerFolding
import Tala.Core.Semantics
import Tala.Frontend.ConstantEvaluation

/-!
# `Frontend.ConstantOperators` — operators at compile time and in a running program

What an operator makes of values that fit their type (`UnaryValue`, `BinaryValue`): the result in the sense
of `Denotes`, a truth value as 0 or 1. Two operators have no result there that the type bounds. A shift by
a count outside the type has none at all, and the program stops; a negative exponent is read by the target
as an unsigned one. `targetResult` is the result as the target computes it, between the specification on one
side and both evaluators on the other.
-/

namespace Tala.Frontend

open Tala.Core Tala.Library Tala.Syntax
open Tala.Core.Optimizer.IntegerFolding (Denotes truncatedDivision_iff nearestQuotient_iff land_iff lor_iff xor_iff
  shiftRight_iff lnot_eq land_lnot)

/-! ## Values of a type -/

/-- A Boolean is 0 or 1; an integer or a character lies in the range of its type. -/
def FitsType (valueType : Ty) (value : Int) : Prop :=
  (valueType = boolType ∧ (value = 0 ∨ value = 1)) ∨ integerFitsCoreType valueType value = true

/-- The integer, character and Boolean types. -/
def IsScalar (valueType : Ty) : Prop := valueType = boolType ∨ isCoreIntegerType valueType = true

/-- What a running program has for an exact value. -/
def valueOf {φ : Type} (valueType : Ty) (value : Int) : Value φ :=
  if valueType = boolType then .boolean (value ≠ 0) else .integer value

/-- What an operator that evaluates both operands makes of them. -/
def BinaryValue (valueType : Ty) (operator : BinaryOperator) (left right result : Int) : Prop :=
  match operator with
  | .lessThan => result = truthInteger (left < right)
  | .lessEqual => result = truthInteger (left ≤ right)
  | .greaterThan => result = truthInteger (left > right)
  | .greaterEqual => result = truthInteger (left ≥ right)
  | .equal => result = truthInteger (left = right)
  | .notEqual => result = truthInteger (left ≠ right)
  -- a negative exponent has no exact result; the target reads it as unsigned
  | .power =>
      if right < 0 then result = wrapInteger valueType (Core.integerPower valueType left right)
      else result = left ^ right.toNat
  | operator =>
      ∃ layout, integerLayout? valueType = some layout ∧ Denotes layout (lowerBinary operator) [left, right] result

def UnaryValue (valueType : Ty) (operator : UnaryOperator) (operand result : Int) : Prop :=
  match operator with
  | .unaryPlus => result = operand
  | .logicalNot => result = truthInteger (operand = 0)
  | operator =>
      ∃ layout, integerLayout? valueType = some layout ∧ Denotes layout (lowerUnary operator) [operand] result

/-! ### Facts of types -/

theorem not_isCoreIntegerType_boolType : isCoreIntegerType boolType = false := by decide

theorem ne_boolType {valueType : Ty} (h : isCoreIntegerType valueType = true) : valueType ≠ boolType := by
  rintro rfl
  rw [not_isCoreIntegerType_boolType] at h
  cases h

/-- A scalar type that is numeric is an integer type. -/
theorem IsScalar.isIntegerType {valueType : Ty} (h : IsScalar valueType) (hnumeric : isNumericType valueType = true) :
    isIntegerType valueType = true := by
  rcases Bool.or_eq_true_iff.mp hnumeric with hinteger | hfloating
  · exact hinteger
  · obtain ⟨hcore, hbool⟩ := not_isCoreIntegerType_of_isFloatingType hfloating
    rcases h with hbool' | hcore'
    · exact absurd hbool' hbool
    · rw [hcore] at hcore'
      cases hcore'

variable {value left right : Int} {layout : Bool × Nat}

/-- A value of an integer type is in its range. -/
theorem FitsType.integer {valueType : Ty} (h : FitsType valueType value)
    (hne : valueType ≠ boolType) : integerFitsCoreType valueType value = true :=
  h.resolve_left fun hbool => hne hbool.1

theorem fitsType_truth (flag : Bool) : FitsType boolType (truthInteger flag) := by
  cases flag
  · exact .inl ⟨rfl, .inl rfl⟩
  · exact .inl ⟨rfl, .inr rfl⟩

theorem FitsType.boolean (h : FitsType boolType value) : value = 0 ∨ value = 1 := by
  rcases h with ⟨-, hvalue⟩ | hfits
  · exact hvalue
  · have hnone : integerLayout? boolType = none := by decide
    simp [integerFitsCoreType, hnone] at hfits

theorem IsScalar.valueOf_integer {φ : Type} {valueType : Ty} (h : isCoreIntegerType valueType = true) :
    (valueOf valueType value : Value φ) = .integer value := if_neg (ne_boolType h)

theorem valueOf_truth {φ : Type} (flag : Bool) :
    (valueOf boolType (truthInteger flag) : Value φ) = .boolean flag := by
  cases flag <;> rfl

/-- The truth of a value of a scalar type is that it is not zero. -/
theorem truth_valueOf (platform : Platform) (valueType : Ty) (value : Int) :
    truth platform (valueOf valueType value).observe = some (decide (value ≠ 0)) := by
  unfold valueOf
  split <;> rfl

/-- The types of integers, characters and Booleans cross into Core as they are. -/
theorem IsScalar.lowerBoundaryType {valueType : Ty} (h : IsScalar valueType) :
    lowerBoundaryType valueType = valueType := by
  rcases h with rfl | hinteger
  · rfl
  · unfold isCoreIntegerType coreTypeSpelling at hinteger
    split at hinteger
    · next name =>
        have hname : name ≠ "void" := by
          rintro rfl
          exact absurd hinteger (by decide)
        have hvoid : Ty.namedType [name] [] ≠ voidType := by
          intro heq
          injection heq with hnames
          injection hnames with hfirst
          exact hname hfirst
        have hplain : enumUnderlyingType (.namedType [name] []) = none := by
          unfold enumUnderlyingType
          split
          · next heq => cases heq
          · rfl
        rw [Core.lowerBoundaryType, if_neg hvoid]
        simp only [hplain]
        rfl
    · exact absurd hinteger (by decide)

theorem layout_width_le {valueType : Ty} (h : integerLayout? valueType = some layout) : layout.2 ≤ 128 := by
  have hmem : (coreTypeSpelling valueType, layout) ∈ integerLayouts := by
    obtain ⟨before, after, hsplit, -⟩ := List.lookup_eq_some_iff.mp h
    simp [hsplit]
  have hall : ∀ row ∈ integerLayouts, row.2.2 ≤ 128 := by decide
  exact hall _ hmem

/-- The compile-time bound is far from every value of a type. -/
theorem FitsType.withinBound {valueType : Ty} (h : FitsType valueType value) : WithinBound value := by
  rcases h with ⟨-, rfl | rfl⟩ | hfits
  · exact withinBound_of_small (by decide)
  · exact withinBound_of_small (by decide)
  · unfold integerFitsCoreType at hfits
    split at hfits
    · next layout hlayout =>
        simp only [Bool.and_eq_true, decide_eq_true_eq] at hfits
        have hmagnitude : layoutMagnitude layout ≤ ((2 ^ 128 : Nat) : Int) := by
          have hwidth := layout_width_le hlayout
          unfold layoutMagnitude
          have hpow : 2 ^ (layout.2 - if layout.1 then 1 else 0) ≤ 2 ^ 128 :=
            Nat.pow_le_pow_right (by decide) (by omega)
          exact_mod_cast hpow
        have hlow : -layoutMagnitude layout ≤ layoutMinimum layout := by
          have := layoutMagnitude_pos layout
          unfold layoutMinimum
          split <;> omega
        have hhigh : layoutMaximum layout < layoutMagnitude layout := by
          unfold layoutMaximum
          omega
        rw [withinBound_iff]
        have hgrows : 2 ^ 128 < 2 ^ maximumCompileTimeIntegerBits := Nat.pow_lt_pow_right (by decide) (by decide)
        generalize 2 ^ maximumCompileTimeIntegerBits = bound at hgrows ⊢
        generalize (2 : Nat) ^ 128 = middle at hgrows hmagnitude
        omega
    · cases hfits

/-! ## The rules of the type checker -/

variable {operator : BinaryOperator}

/-- The operands of an operator on scalars have one type. A comparison gives a Boolean; every other operator
is one on integers and gives their type. -/
theorem binaryNumericRule_scalar {leftType rightType valueType : Ty}
    (heager : isShortCircuit operator = false) (hscalar : IsScalar leftType)
    (h : binaryNumericRule operator leftType rightType = success valueType) :
    rightType = leftType ∧
      ((isComparison operator = true ∧ valueType = boolType ∧
          (isCoreIntegerType leftType = true ∨ operator = .equal ∨ operator = .notEqual)) ∨
        (isComparison operator = false ∧ valueType = leftType ∧ isIntegerType leftType = true)) := by
  unfold binaryNumericRule at h
  have hlogical : [BinaryOperator.logicalAnd, .logicalOr].contains operator = false := by
    cases operator <;> first | rfl | cases heager
  rw [hlogical, if_neg Bool.false_ne_true] at h
  split at h
  · next hequality =>
      have hcases : operator = .equal ∨ operator = .notEqual := by simpa using hequality
      split at h
      · next hsame =>
          cases h
          refine ⟨hsame.symm, .inl ⟨?_, rfl, .inr hcases⟩⟩
          rcases hcases with rfl | rfl <;> rfl
      · cases h
  · split at h
    · cases h
    · next hsame =>
        have hsame : leftType = rightType := of_not_not hsame
        split at h
        · cases h
        · split at h
          · cases h
          · next hnumeric =>
              have hnumeric : isNumericType leftType = true := by simpa using hnumeric
              have hinteger := hscalar.isIntegerType hnumeric
              have hresult : resultFor operator leftType = valueType := by
                injection h
              unfold resultFor at hresult
              refine ⟨hsame.symm, ?_⟩
              cases hcomparison : isComparison operator with
              | true =>
                  rw [hcomparison, if_pos rfl] at hresult
                  exact .inl ⟨rfl, hresult.symm, .inl (isCoreIntegerType_of_isIntegerType hinteger)⟩
              | false =>
                  rw [hcomparison, if_neg Bool.false_ne_true, if_neg] at hresult
                  · exact .inr ⟨rfl, hresult.symm, hinteger⟩
                  · rintro ⟨-, hfloating⟩
                    have := (not_isCoreIntegerType_of_isFloatingType hfloating).1
                    rw [isCoreIntegerType_of_isIntegerType hinteger] at this
                    cases this

/-! ## Binary operators -/

/-- The result of a binary operator as the target computes it. -/
def targetResult (valueType : Ty) (operator : BinaryOperator) (left right : Int) : Except Trap Int :=
  let inShiftRange := 0 ≤ right ∧ right < (coreIntegerBitWidth valueType).getD 0
  match operator with
  | .add => .ok (left + right)
  | .subtract => .ok (left - right)
  | .multiply => .ok (left * right)
  | .divide => if right = 0 then .error .divisionByZero else .ok (left.tdiv right)
  | .floorDivide =>
      if right = 0 then .error .divisionByZero else .ok (Core.roundedIntegerDivision left right)
  | .remainder => if right = 0 then .error .divisionByZero else .ok (left.tmod right)
  | .power =>
      .ok (if right < 0 then wrapInteger valueType (Core.integerPower valueType left right)
        else left ^ right.toNat)
  | .shiftLeft => if inShiftRange then .ok (left <<< right.toNat) else .error .shiftOutOfRange
  | .shiftRight => if inShiftRange then .ok (left >>> right.toNat) else .error .shiftOutOfRange
  | .bitwiseAnd => .ok (left.land right)
  | .bitwiseXor => .ok (left.xor right)
  | .bitwiseOr => .ok (left.lor right)
  | .lessThan => .ok (truthInteger (left < right))
  | .lessEqual => .ok (truthInteger (left ≤ right))
  | .greaterThan => .ok (truthInteger (left > right))
  | .greaterEqual => .ok (truthInteger (left ≥ right))
  | .equal => .ok (truthInteger (left = right))
  | .notEqual => .ok (truthInteger (left ≠ right))
  | .logicalAnd => .ok (truthInteger (left ≠ 0 && right ≠ 0))
  | .logicalOr => .ok (truthInteger (left ≠ 0 || right ≠ 0))

variable {result number : Int} {issue : ConstantIntegerError}

/-- What the target computes is the value of the operator. -/
theorem binaryValue_of_targetResult {valueType : Ty} (heager : isShortCircuit operator = false)
    (htype : isComparison operator = false → isCoreIntegerType valueType = true)
    (h : targetResult valueType operator left right = .ok result) :
    BinaryValue valueType operator left right result := by
  have hdenoted (harithmetic : isComparison operator = false)
      (hresult : ∀ layout, integerLayout? valueType = some layout →
        Denotes layout (lowerBinary operator) [left, right] result) :
      ∃ layout, integerLayout? valueType = some layout ∧
        Denotes layout (lowerBinary operator) [left, right] result := by
    obtain ⟨layout, hlayout⟩ := isCoreIntegerType_iff_layout.mp (htype harithmetic)
    exact ⟨layout, hlayout, hresult layout hlayout⟩
  cases operator with
  | add =>
      cases h
      exact hdenoted rfl fun _ _ => rfl
  | subtract =>
      cases h
      exact hdenoted rfl fun _ _ => rfl
  | multiply =>
      cases h
      exact hdenoted rfl fun _ _ => rfl
  | divide =>
      simp only [targetResult] at h
      split at h
      · cases h
      · next hright =>
          cases h
          exact hdenoted rfl fun _ _ => ⟨_, truncatedDivision_iff.mpr ⟨hright, rfl, rfl⟩⟩
  | floorDivide =>
      simp only [targetResult] at h
      split at h
      · cases h
      · next hright =>
          cases h
          exact hdenoted rfl fun _ _ => nearestQuotient_iff.mpr ⟨hright, rfl⟩
  | remainder =>
      simp only [targetResult] at h
      split at h
      · cases h
      · next hright =>
          cases h
          exact hdenoted rfl fun _ _ => ⟨_, truncatedDivision_iff.mpr ⟨hright, rfl, rfl⟩⟩
  | power =>
      cases h
      show if right < 0 then _ else _
      split <;> rfl
  | shiftLeft =>
      simp only [targetResult] at h
      split at h
      · next hrange =>
          cases h
          refine hdenoted rfl fun layout hlayout => ?_
          rw [coreIntegerBitWidth, hlayout] at hrange
          refine ⟨hrange.1, hrange.2, ?_⟩
          rw [Int.shiftLeft_eq]
      · cases h
  | shiftRight =>
      simp only [targetResult] at h
      split at h
      · next hrange =>
          cases h
          refine hdenoted rfl fun layout hlayout => ?_
          rw [coreIntegerBitWidth, hlayout] at hrange
          exact ⟨hrange.1, hrange.2, shiftRight_iff.mpr rfl⟩
      · cases h
  | bitwiseAnd =>
      cases h
      exact hdenoted rfl fun _ _ => land_iff.mpr rfl
  | bitwiseXor =>
      cases h
      exact hdenoted rfl fun _ _ => xor_iff.mpr rfl
  | bitwiseOr =>
      cases h
      exact hdenoted rfl fun _ _ => lor_iff.mpr rfl
  | lessThan | lessEqual | greaterThan | greaterEqual | equal | notEqual =>
      cases h
      rfl
  | logicalAnd | logicalOr => cases heager

/-- The rounding at compile time is that of the target. -/
theorem roundedIntegerDivision_eq (dividend divisor : Int) :
    roundedIntegerDivision dividend divisor = Core.roundedIntegerDivision dividend divisor := by
  show (if 2 * |dividend.tmod divisor| ≥ |divisor| then _ else _)
    = if 2 * ((dividend.tmod divisor).natAbs : Int) ≥ divisor.natAbs then _ else _
  rw [Int.abs_eq_natAbs, Int.abs_eq_natAbs]

def IsShift (operator : BinaryOperator) : Prop := operator = .shiftLeft ∨ operator = .shiftRight

/-- Whether a count is one the target shifts by. -/
def CountInRange (valueType : Ty) (count : Int) : Prop :=
  0 ≤ count ∧ count < (coreIntegerBitWidth valueType).getD 0

/-- The errors about a divisor. -/
def IsDivisionError (issue : ConstantIntegerError) : Prop :=
  issue = .constantDivisionByZero ∨ issue = .constantFloorDivisionByZero ∨ issue = .constantRemainderByZero

/-- **A compile-time result is that of the target**, unless it is that of a shift the target refuses. -/
theorem evaluateBinaryIntegers_eq_ok (valueType : Ty) (hleft : WithinBound left) (hright : WithinBound right)
    (h : evaluateBinaryIntegers operator left right = .ok (some result)) :
    targetResult valueType operator left right = .ok result ∨ (IsShift operator ∧ ¬CountInRange valueType right) := by
  cases operator with
  | add | subtract | bitwiseAnd | bitwiseXor | bitwiseOr | lessThan | lessEqual | greaterThan | greaterEqual | equal
  | notEqual | logicalAnd | logicalOr =>
      rw [checkedValue_eq_ok h]
      exact .inl rfl
  | multiply =>
      have hproduct := mapLimitError_eq_ok h
      obtain ⟨hvalue, -⟩ := (multiplyCompileTimeIntegers_exactly hleft hright result).mp hproduct
      exact .inl (congrArg Except.ok (Option.some.inj hvalue))
  | divide | remainder =>
      simp only [evaluateBinaryIntegers] at h
      split at h
      · cases h
      · next hzero =>
          rw [checkedValue_eq_ok h]
          exact .inl (if_neg hzero)
  | floorDivide =>
      simp only [evaluateBinaryIntegers] at h
      split at h
      · cases h
      · next hzero =>
          rw [checkedValue_eq_ok h, roundedIntegerDivision_eq]
          exact .inl (if_neg hzero)
  | power =>
      simp only [evaluateBinaryIntegers] at h
      split at h
      · cases h
      · next hneg =>
          obtain ⟨hvalue, -⟩ := (evaluateCompileTimePower_exactly hleft right result).mp (mapLimitError_eq_ok h)
          unfold integerPower at hvalue
          rw [if_pos (Int.not_lt.mp hneg)] at hvalue
          cases hvalue
          exact .inl (congrArg Except.ok (if_neg hneg))
  | shiftLeft =>
      by_cases hrange : CountInRange valueType right
      · obtain ⟨hvalue, -⟩ := (evaluateCompileTimeShiftLeft_exactly hleft right result).mp (mapLimitError_eq_ok h)
        obtain ⟨count, rfl⟩ := Int.eq_ofNat_of_zero_le hrange.1
        have hresult : left * 2 ^ count = result := (shifted_left left count).symm.trans (Option.some.inj hvalue)
        left
        rw [← hresult, ← Int.shiftLeft_eq]
        exact if_pos hrange
      · exact .inr ⟨.inl rfl, hrange⟩
  | shiftRight =>
      by_cases hrange : CountInRange valueType right
      · obtain ⟨hvalue, -⟩ := (evaluateCompileTimeShiftRight_exactly hleft right result).mp (mapLimitError_eq_ok h)
        obtain ⟨count, rfl⟩ := Int.eq_ofNat_of_zero_le hrange.1
        have hresult : left / (2 ^ count : Nat) = result :=
          (shifted_right left count).symm.trans (Option.some.inj hvalue)
        left
        rw [← hresult, ← Int.shiftRight_eq_div_pow]
        exact if_pos hrange
      · exact .inr ⟨.inr rfl, hrange⟩

/-- A refused shift stops the program. -/
theorem targetResult_shift {valueType : Ty} (hshift : IsShift operator) (hrange : ¬CountInRange valueType right) :
    targetResult valueType operator left right = .error .shiftOutOfRange := by
  rcases hshift with rfl | rfl <;> exact if_neg hrange

/-- **An error about a divisor** is one where the program stops. -/
theorem evaluateBinaryIntegers_eq_error (valueType : Ty) (hissue : IsDivisionError issue)
    (h : evaluateBinaryIntegers operator left right = .error issue) :
    targetResult valueType operator left right = .error .divisionByZero := by
  have hlimit : issue ≠ .constantEvaluationLimitExceeded := by
    rintro rfl
    rcases hissue with hissue | hissue | hissue <;> cases hissue
  have hexponent : issue ≠ .constantNegativeExponent := by
    rintro rfl
    rcases hissue with hissue | hissue | hissue <;> cases hissue
  have hexact {outcome : Except CompileTimeIntegerError Int}
      (houtcome : some <$> mapLimitError outcome = .error issue) :
      False := (mapLimitError_eq_error houtcome).elim hexponent hlimit
  cases operator with
  | add | subtract | bitwiseAnd | bitwiseXor | bitwiseOr | lessThan | lessEqual | greaterThan | greaterEqual | equal
  | notEqual | logicalAnd | logicalOr => exact absurd (checkedValue_eq_error h) hlimit
  | multiply | shiftLeft | shiftRight => exact (hexact h).elim
  | divide | floorDivide | remainder =>
      simp only [evaluateBinaryIntegers] at h
      split at h
      · next hzero => exact if_pos hzero
      · exact absurd (checkedValue_eq_error h) hlimit
  | power =>
      simp only [evaluateBinaryIntegers] at h
      split at h
      · cases h
        exact absurd rfl hexponent
      · exact (hexact h).elim

section Running

variable (platform : Platform) (world : World platform.Floating)

/-- How a finished operator shows in a run. -/
def finished (valueType : Ty) : Except Trap Int → Run platform (Value platform.Floating)
  | .ok result => .done (valueOf valueType result) world
  | .error trap => .stopped trap world

/-- **A running comparison** is the comparison of the exact values. -/
theorem finishPrimitive_comparison {valueType : Ty}
    (hcomparison : isComparison operator = true) (hscalar : IsScalar valueType)
    (hoperator : isCoreIntegerType valueType = true ∨ operator = .equal ∨ operator = .notEqual)
    (hleft : FitsType valueType left) (hright : FitsType valueType right) :
    finishPrimitive platform (lowerBinary operator) boolType [valueOf valueType left, valueOf valueType right] world
      = finished platform world boolType (targetResult boolType operator left right) := by
  rcases hscalar with rfl | hinteger
  · -- two Booleans are compared as Booleans
    have hequality : operator = .equal ∨ operator = .notEqual :=
      hoperator.resolve_left (by rw [not_isCoreIntegerType_boolType]; exact Bool.false_ne_true)
    rcases hequality with rfl | rfl <;> rcases hleft.boolean with rfl | rfl <;>
      rcases hright.boolean with rfl | rfl <;> rfl
  · rw [IsScalar.valueOf_integer hinteger, IsScalar.valueOf_integer hinteger]
    have hshown (flag : Bool) : finished platform world boolType (.ok (truthInteger flag))
        = .done (.boolean flag) world := by
      show Outcome.done (valueOf boolType (truthInteger flag)) world = _
      rw [valueOf_truth]
    cases operator with
    | lessThan | lessEqual | greaterThan | greaterEqual | equal | notEqual => exact (hshown _).symm
    | _ => cases hcomparison

/-- Read as unsigned, an exponent that is not negative is itself. -/
theorem integerPower_nonnegative {valueType : Ty} {base exponent : Int} (h : 0 ≤ exponent)
    (hfits : integerFitsCoreType valueType exponent = true) :
    Core.integerPower valueType base exponent = base ^ exponent.toNat := by
  unfold Core.integerPower
  split
  · next layout hlayout =>
      rw [integerFitsCoreType_iff hlayout] at hfits
      have hlow := layoutMinimum_nonpos layout
      rw [Int.emod_eq_of_lt h (by unfold layoutSpan; omega)]
  · rfl

/-- **A running operator on integers** gives its result, or stops; nothing wraps where the result fits. -/
theorem finishPrimitive_arithmetic {valueType : Ty}
    (heager : isShortCircuit operator = false) (harithmetic : isComparison operator = false)
    (hinteger : isCoreIntegerType valueType = true) (hright : FitsType valueType right)
    (hfits : ∀ result, targetResult valueType operator left right = .ok result → FitsType valueType result) :
    finishPrimitive platform (lowerBinary operator) valueType [valueOf valueType left, valueOf valueType right] world
      = finished platform world valueType (targetResult valueType operator left right) := by
  have hne := ne_boolType hinteger
  rw [IsScalar.valueOf_integer hinteger, IsScalar.valueOf_integer hinteger]
  have hdone {result : Int} (hresult : targetResult valueType operator left right = .ok result) :
      Outcome.done (Value.integer (wrapInteger valueType result)) world
        = finished platform world valueType (targetResult valueType operator left right) := by
    rw [hresult, wrapInteger_eq ((hfits result hresult).integer hne)]
    show _ = Outcome.done (valueOf valueType result) world
    rw [IsScalar.valueOf_integer hinteger]
  cases operator with
  | add | subtract | multiply | bitwiseAnd | bitwiseXor | bitwiseOr => exact hdone rfl
  | divide | floorDivide | remainder =>
      by_cases hzero : right = 0
      · simp [finishPrimitive, applyPrimitive, applyBinary, applyInteger, lowerBinary, Value.observe, targetResult,
          finished, hzero]
      · simp only [finishPrimitive, applyPrimitive, applyBinary, applyInteger, lowerBinary, Value.observe,
          List.map_cons, List.map_nil, if_neg hzero, reduceCtorEq, if_false]
        exact hdone (if_neg hzero)
  | shiftLeft | shiftRight =>
      by_cases hrange : 0 ≤ right ∧ right < (coreIntegerBitWidth valueType).getD 0
      · simp only [finishPrimitive, applyPrimitive, applyBinary, applyInteger, lowerBinary, Value.observe,
          List.map_cons, List.map_nil, if_pos hrange, reduceCtorEq, if_false]
        exact hdone (if_pos hrange)
      · simp only [finishPrimitive, applyPrimitive, applyBinary, applyInteger, lowerBinary, Value.observe,
          List.map_cons, List.map_nil, if_neg hrange, reduceCtorEq, if_false, targetResult, finished]
  | power =>
      by_cases hneg : right < 0
      · show Outcome.done (Value.integer (wrapInteger valueType (Core.integerPower valueType left right))) world
          = Outcome.done (valueOf valueType (if right < 0 then _ else _)) world
        rw [if_pos hneg, IsScalar.valueOf_integer hinteger]
      · show Outcome.done (Value.integer (wrapInteger valueType (Core.integerPower valueType left right))) world = _
        rw [integerPower_nonnegative (Int.not_lt.mp hneg) (hright.integer hne)]
        exact hdone (congrArg Except.ok (if_neg hneg))
  | lessThan | lessEqual | greaterThan | greaterEqual | equal | notEqual => cases harithmetic
  | logicalAnd | logicalOr => cases heager

/-- **A running operator** gives the value of the operator, or stops the program. -/
theorem finishPrimitive_binary {leftType rightType valueType : Ty}
    (heager : isShortCircuit operator = false) (hscalar : IsScalar leftType)
    (hrule : binaryNumericRule operator leftType rightType = success valueType)
    (hleft : FitsType leftType left) (hright : FitsType rightType right)
    (hfits : ∀ result, BinaryValue valueType operator left right result → FitsType valueType result) :
    finishPrimitive platform (lowerBinary operator) valueType [valueOf leftType left, valueOf rightType right] world
        = finished platform world valueType (targetResult valueType operator left right) ∧
      ∀ result, targetResult valueType operator left right = .ok result →
        BinaryValue valueType operator left right result := by
  obtain ⟨rfl, ⟨hcomparison, rfl, hoperator⟩ | ⟨harithmetic, rfl, hinteger⟩⟩ :=
    binaryNumericRule_scalar heager hscalar hrule
  · refine ⟨finishPrimitive_comparison platform world hcomparison hscalar hoperator hleft hright, ?_⟩
    intro result hresult
    refine binaryValue_of_targetResult heager (fun harithmetic => ?_) hresult
    rw [hcomparison] at harithmetic
    cases harithmetic
  · have hinteger := isCoreIntegerType_of_isIntegerType hinteger
    have hvalue : ∀ result, targetResult valueType operator left right = .ok result →
        BinaryValue valueType operator left right result :=
      fun result => binaryValue_of_targetResult heager fun _ => hinteger
    exact ⟨finishPrimitive_arithmetic platform world heager harithmetic hinteger hright
      fun result hresult => hfits result (hvalue result hresult), hvalue⟩

end Running

/-! ## Unary operators -/

/-- The complement of a value of an integer type. -/
def complementOf (layout : Bool × Nat) (value : Int) : Int :=
  if layout.1 then -1 - value else 2 ^ layout.2 - 1 - value

/-- The compile-time complement stays in an unsigned type. -/
theorem typedBitwiseComplement_eq {valueType : Ty}
    (hinteger : isIntegerType valueType = true) (hlayout : integerLayout? valueType = some layout)
    (hfits : integerFitsCoreType valueType value = true) :
    typedBitwiseComplement valueType value = complementOf layout value := by
  obtain ⟨scalar, hscalar, hscalarLayout, hfamily⟩ := integerLayout_of_isIntegerType hinteger
  rw [hlayout] at hscalarLayout
  cases hscalarLayout
  rw [integerFitsCoreType_iff hlayout] at hfits
  simp only [typedBitwiseComplement, hscalar, complementOf]
  by_cases hunsigned : scalarTypeFamily scalar = .unsignedIntegerFamily
  · have hsigned : decide (scalarTypeFamily scalar = .signedIntegerFamily) = false :=
      decide_eq_false (hfamily.mp hunsigned)
    have hmask : (1 : Int) <<< scalarTypeWidth scalar = 2 ^ scalarTypeWidth scalar := by
      rw [Int.shiftLeft_eq, one_mul]
    rw [hsigned] at hfits ⊢
    rw [if_pos hunsigned, hmask]
    simp only [layoutMinimum, layoutMaximum, layoutMagnitude, Bool.false_eq_true, if_false, Nat.sub_zero] at hfits ⊢
    exact land_lnot hfits.1 hfits.2
  · have hsigned : scalarTypeFamily scalar = .signedIntegerFamily :=
      of_not_not fun hnot => hunsigned (hfamily.mpr hnot)
    rw [if_neg hunsigned, lnot_eq, decide_eq_true hsigned]
    rfl

/-- The complement of the target wraps to the one in the bits of the type. -/
theorem wrapInteger_complement {valueType : Ty}
    (hlayout : integerLayout? valueType = some layout) (hfits : integerFitsCoreType valueType value = true) :
    wrapInteger valueType (-value - 1) = complementOf layout value := by
  rw [integerFitsCoreType_iff hlayout] at hfits
  simp only [wrapInteger, hlayout, complementOf, layoutSpan]
  cases hsigned : layout.1 with
  | true =>
      simp only [layoutMinimum, layoutMaximum, hsigned, if_true] at hfits ⊢
      rw [Int.emod_eq_of_lt (by omega) (by omega)]
      omega
  | false =>
      simp only [layoutMinimum, layoutMaximum, layoutMagnitude, hsigned, Bool.false_eq_true, if_false, Nat.sub_zero]
        at hfits ⊢
      generalize (2 : Int) ^ layout.2 = bound at hfits ⊢
      have hshift : (-value - 1 - 0) % (bound - 1 - 0 + 1) = (-value - 1 + bound) % bound := by
        rw [Int.add_emod_right]
        congr 1 <;> omega
      rw [hshift, Int.emod_eq_of_lt (by omega) (by omega)]
      omega

/-- A unary operator fails only for the bound. -/
theorem evaluateUnaryInteger_eq_error {operator : UnaryOperator} {valueType : Ty}
    (h : evaluateUnaryInteger operator valueType number = .error issue) :
    issue = .constantEvaluationLimitExceeded := by
  cases operator <;> exact checkedValue_eq_error h

/-- **A unary operator** has one value, at compile time and in a run. -/
theorem unary_agrees (platform : Platform) (world : World platform.Floating) {operator : UnaryOperator}
    {operandType valueType : Ty} (hscalar : IsScalar operandType)
    (hrule : unaryNumericRule operator operandType = success valueType) (hnumber : FitsType operandType number) :
    ∃ result, UnaryValue valueType operator number result ∧
      (operator = .unaryPlus → valueType = operandType ∧ result = number) ∧
      (operator ≠ .unaryPlus → FitsType valueType result →
        finishPrimitive platform (lowerUnary operator) valueType [valueOf operandType number] world
          = .done (valueOf valueType result) world) ∧
      (∀ value, evaluateUnaryInteger operator valueType number = .ok (some value) → value = result) := by
  unfold unaryNumericRule at hrule
  cases operator with
  | unaryPlus =>
      simp only at hrule
      split at hrule
      · cases hrule
        exact ⟨number, rfl, fun _ => ⟨rfl, rfl⟩, fun hne => absurd rfl hne,
          fun value hvalue => checkedValue_eq_ok hvalue⟩
      · cases hrule
  | unaryNegate =>
      simp only at hrule
      split at hrule
      · next hsigned =>
          cases hrule
          have hinteger : isIntegerType operandType = true := by
            rcases Bool.or_eq_true_iff.mp hsigned with hsigned | hfloating
            · exact isIntegerType_of_signed hsigned
            · exact hscalar.isIntegerType (Bool.or_eq_true_iff.mpr (.inr hfloating))
          have hcore := isCoreIntegerType_of_isIntegerType hinteger
          obtain ⟨layout, hlayout⟩ := isCoreIntegerType_iff_layout.mp hcore
          refine ⟨-number, ⟨layout, hlayout, Int.add_left_neg number⟩, nofun, fun _ hfits => ?_,
            fun value hvalue => checkedValue_eq_ok hvalue⟩
          rw [IsScalar.valueOf_integer hcore, IsScalar.valueOf_integer hcore]
          show Outcome.done (Value.integer (wrapInteger operandType (-number))) world = _
          rw [wrapInteger_eq (hfits.integer (ne_boolType hcore))]
      · cases hrule
  | logicalNot =>
      simp only at hrule
      split at hrule
      · cases hrule
        refine ⟨truthInteger (number = 0), rfl, nofun, fun _ _ => ?_, fun value hvalue => ?_⟩
        · rw [valueOf_truth]
          simp only [finishPrimitive, applyPrimitive, applyUnary, lowerUnary, List.map_cons, List.map_nil,
            truth_valueOf, Datum.toValue]
          simp
        · rw [checkedValue_eq_ok hvalue]
          simp [truthInteger]
      · cases hrule
  | bitwiseNot =>
      simp only at hrule
      split at hrule
      · next hinteger =>
          cases hrule
          have hcore := isCoreIntegerType_of_isIntegerType hinteger
          obtain ⟨layout, hlayout⟩ := isCoreIntegerType_iff_layout.mp hcore
          have hfits := hnumber.integer (ne_boolType hcore)
          refine ⟨complementOf layout number, ⟨layout, hlayout, ?_⟩, nofun, fun _ _ => ?_, fun value hvalue => ?_⟩
          · show complementOf layout number + number = if layout.1 then -1 else 2 ^ layout.2 - 1
            unfold complementOf
            split <;> omega
          · rw [IsScalar.valueOf_integer hcore, IsScalar.valueOf_integer hcore]
            show Outcome.done (Value.integer (wrapInteger operandType (-number - 1))) world = _
            rw [wrapInteger_complement hlayout hfits]
          · rw [checkedValue_eq_ok hvalue, typedBitwiseComplement_eq hinteger hlayout hfits]
      · cases hrule

end Tala.Frontend
