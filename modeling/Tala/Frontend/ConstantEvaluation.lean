import Tala.Frontend.IntegerEvaluation
import Tala.Frontend.NumericSemantics

/-!
# `Frontend.ConstantEvaluation` — the value of a constant integer expression

A compile-time value is an exact integer, a Boolean counting as 0 or 1, whatever the type of the expression
is. An expression that is not constant has no value; an arithmetic failure is kept as an error, so that it
is reported where it happens. Both operands of a binary operator are evaluated, also of `&&` and `||`; of
the arms of `?:` only the selected one.
-/

namespace Tala.Frontend

open Tala.Syntax

inductive ConstantIntegerError
  | constantDivisionByZero
  | constantFloorDivisionByZero
  | constantRemainderByZero
  | constantNegativeExponent
  | constantEvaluationLimitExceeded
  deriving DecidableEq, Repr

/-- The complement in the bits of the type where the type is unsigned. -/
def typedBitwiseComplement (resultType : Ty) (value : Int) : Int :=
  match typeToScalarType resultType with
  | some scalar =>
      if scalarTypeFamily scalar = .unsignedIntegerFamily then
        value.lnot.land ((1 : Int) <<< scalarTypeWidth scalar - 1)
      else value.lnot
  | none => value.lnot

def mapLimitError {value : Type} : Except CompileTimeIntegerError value → Except ConstantIntegerError value
  | .ok value => .ok value
  | .error .compileTimeNegativeExponent => .error .constantNegativeExponent
  | .error .compileTimeIntegerLimitExceeded => .error .constantEvaluationLimitExceeded

/-- `checkedValue` and `checkedMaybe` of the source. -/
def checkedValue (value : Int) : Except ConstantIntegerError (Option Int) :=
  some <$> mapLimitError (checkCompileTimeInteger value)

/-- The nearest integer, exact halves away from zero: twice the remainder against the divisor. -/
def roundedIntegerDivision (dividend divisor : Int) : Int :=
  let quotient := dividend.tdiv divisor
  let remainder := dividend.tmod divisor
  let adjustment := dividend.sign * divisor.sign
  if 2 * |remainder| ≥ |divisor| then quotient + adjustment else quotient

/-- A truth value as an integer. -/
def truthInteger (flag : Bool) : Int := if flag then 1 else 0

/-- `evaluateBinary` on two values. -/
def evaluateBinaryIntegers (operator : BinaryOperator) (left right : Int) :
    Except ConstantIntegerError (Option Int) :=
  let boolean flag := checkedValue (truthInteger flag)
  match operator with
  | .add => checkedValue (left + right)
  | .subtract => checkedValue (left - right)
  | .multiply => some <$> mapLimitError (multiplyCompileTimeIntegers left right)
  | .divide => if right = 0 then .error .constantDivisionByZero else checkedValue (left.tdiv right)
  | .floorDivide =>
      if right = 0 then .error .constantFloorDivisionByZero
      else checkedValue (roundedIntegerDivision left right)
  | .remainder => if right = 0 then .error .constantRemainderByZero else checkedValue (left.tmod right)
  | .power =>
      if right < 0 then .error .constantNegativeExponent
      else some <$> mapLimitError (evaluateCompileTimePower left right)
  | .shiftLeft => some <$> mapLimitError (evaluateCompileTimeShiftLeft left right)
  | .shiftRight => some <$> mapLimitError (evaluateCompileTimeShiftRight left right)
  | .bitwiseAnd => checkedValue (left.land right)
  | .bitwiseXor => checkedValue (left.xor right)
  | .bitwiseOr => checkedValue (left.lor right)
  | .lessThan => boolean (left < right)
  | .lessEqual => boolean (left ≤ right)
  | .greaterThan => boolean (left > right)
  | .greaterEqual => boolean (left ≥ right)
  | .equal => boolean (left = right)
  | .notEqual => boolean (left ≠ right)
  | .logicalAnd => boolean (left ≠ 0 && right ≠ 0)
  | .logicalOr => boolean (left ≠ 0 || right ≠ 0)

def evaluateBinary (operator : BinaryOperator) : Option Int → Option Int →
    Except ConstantIntegerError (Option Int)
  | some left, some right => evaluateBinaryIntegers operator left right
  | _, _ => .ok none

/-- The value of a unary operator on a value. -/
def evaluateUnaryInteger (operator : UnaryOperator) (resultType : Ty) (number : Int) :
    Except ConstantIntegerError (Option Int) :=
  match operator with
  | .unaryPlus => checkedValue number
  | .unaryNegate => checkedValue (-number)
  | .logicalNot => checkedValue (if number = 0 then 1 else 0)
  | .bitwiseNot => checkedValue (typedBitwiseComplement resultType number)

def evaluateConstantInteger {name : Type} : Expression name → Except ConstantIntegerError (Option Int)
  | .literalExpression _ literal _ =>
      match literal with
      | .integerLiteral value => checkedValue value
      | .characterLiteral value => checkedValue value
      | .booleanLiteral value => checkedValue (if value then 1 else 0)
      | _ => .ok none
  | .unaryExpression _ operator value resultType => do
      let operand ← evaluateConstantInteger value
      match operand with
      | some number => evaluateUnaryInteger operator resultType number
      | none => .ok none
  | .binaryExpression _ operator left right _ => do
      let leftValue ← evaluateConstantInteger left
      let rightValue ← evaluateConstantInteger right
      evaluateBinary operator leftValue rightValue
  -- only the selected operand is evaluated
  | .conditionalExpression _ condition first second _ => do
      let test ← evaluateConstantInteger condition
      match test with
      | some number => if number ≠ 0 then evaluateConstantInteger first else evaluateConstantInteger second
      | none => .ok none
  | .coalesceExpression _ left fallback _ => do
      let leftValue ← evaluateConstantInteger left
      match leftValue with
      | some number => if number = 0 then evaluateConstantInteger fallback else .ok (some number)
      | none => .ok none
  | _ => .ok none

/-! ## Outcomes of the operators -/

variable {result : Int} {issue : ConstantIntegerError} {outcome : Except CompileTimeIntegerError Int}

theorem checkedValue_eq_ok {value : Int} (h : checkedValue value = .ok (some result)) : result = value := by
  unfold checkedValue checkCompileTimeInteger at h
  split at h
  · cases h
  · cases h
    rfl

/-- Checking fails only for the bound. -/
theorem checkedValue_eq_error {value : Int} (h : checkedValue value = .error issue) :
    issue = .constantEvaluationLimitExceeded := by
  unfold checkedValue checkCompileTimeInteger at h
  split at h
  · cases h
    rfl
  · cases h

theorem mapLimitError_eq_ok (h : some <$> mapLimitError outcome = .ok (some result)) : outcome = .ok result := by
  cases outcome with
  | ok value =>
      cases h
      rfl
  | error error => cases error <;> cases h

/-- Neither error of the exact operations is about a divisor. -/
theorem mapLimitError_eq_error (h : some <$> mapLimitError outcome = .error issue) :
    issue = .constantNegativeExponent ∨ issue = .constantEvaluationLimitExceeded := by
  cases outcome with
  | ok value => cases h
  | error error =>
      cases error with
      | compileTimeIntegerLimitExceeded =>
          cases h
          exact .inr rfl
      | compileTimeNegativeExponent =>
          cases h
          exact .inl rfl

end Tala.Frontend
