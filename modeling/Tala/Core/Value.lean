import Mathlib.Data.Int.Bitwise
import Tala.Core.Verifier

/-!
# `Core.Value` — run-time values and the meaning of the primitives

Integers are exact and wrap at the width of their type. What the program text alone does not decide is a
parameter, `Platform`: floating arithmetic, the text of a formatted value, and comparisons of references
by identity. The primitives see values through `Datum`, in which a callable is opaque; `Datum` is also
what a run shows of the value it returns.
-/

namespace Tala.Core

open Tala

/-- What primitives see of a value. -/
inductive Datum (φ : Type)
  | integer (value : Int)
  | boolean (value : Bool)
  | unit
  | floating (value : φ)
  | text (value : String)
  | null
  | object (identity : Nat)
  | callable

/-- The parts of the meaning of Core that a target supplies. -/
structure Platform where
  Floating : Type
  floatingLiteral : Ty → String → Floating
  /-- A floating primitive whose result has the given type. -/
  floatingOperation : CorePrimitive → Ty → List Floating → Floating
  /-- The quotient rounded to an integer. -/
  floatingRounded : Floating → Floating → Int
  floatingCompare : CorePrimitive → Floating → Floating → Bool
  floatingTruth : Floating → Bool
  /-- Whether two references are one object. -/
  identical : Datum Floating → Datum Floating → Bool
  typeIs : Datum Floating → Int → Bool
  /-- The text a text function of the runtime returns. -/
  runtimeText : RuntimeFunction → List (Datum Floating) → String

/-- A run-time value. -/
inductive Value (φ : Type)
  | integer (value : Int)
  | boolean (value : Bool)
  | unit
  | floating (value : φ)
  | text (value : String)
  | null
  | object (identity : Nat)
  /-- The values its captures had when it was created, the symbols of its parameters, and its body. -/
  | closure (captured : List (Int × Value φ)) (parameters : List Int) (body : List CoreStatement)
  /-- The cell that holds the result once there is one, the type of that result, and the callable that
  computes it. Copies of the value share the cell. -/
  | memo (cell : Nat) (resultType : Ty) (computation : Value φ)

namespace Value

variable {φ : Type}

def observe : Value φ → Datum φ
  | integer value => .integer value
  | boolean value => .boolean value
  | unit => .unit
  | floating value => .floating value
  | text value => .text value
  | null => .null
  | object identity => .object identity
  | closure _ _ _ => .callable
  | memo _ _ _ => .callable

end Value

/-- A datum that is not opaque, as a value. -/
def Datum.toValue {φ : Type} : Datum φ → Value φ
  | integer value => .integer value
  | boolean value => .boolean value
  | unit => .unit
  | floating value => .floating value
  | text value => .text value
  | null => .null
  | object identity => .object identity
  | callable => .null

/-- Why a program stops. -/
inductive Trap
  | divisionByZero
  | shiftOutOfRange
  deriving DecidableEq, Repr

/-! ## Integer arithmetic -/

/-- Number of values of an integer layout. -/
def layoutSpan (layout : Bool × Nat) : Int := layoutMaximum layout - layoutMinimum layout + 1

/-- The value of an integer type that an exact result wraps to. -/
def wrapInteger (valueType : Ty) (value : Int) : Int :=
  match integerLayout? valueType with
  | some layout => layoutMinimum layout + (value - layoutMinimum layout) % layoutSpan layout
  | none => value

theorem wrapInteger_fits {valueType : Ty} (h : isCoreIntegerType valueType = true) (value : Int) :
    integerFitsCoreType valueType (wrapInteger valueType value) = true := by
  obtain ⟨layout, hl⟩ := isCoreIntegerType_iff_layout.mp h
  have hspan : 0 < layoutSpan layout := by
    have := layoutMinimum_nonpos layout
    have := layoutMaximum_nonneg layout
    unfold layoutSpan
    omega
  have hlow := Int.emod_nonneg (value - layoutMinimum layout) (by omega : layoutSpan layout ≠ 0)
  have hhigh := Int.emod_lt_of_pos (value - layoutMinimum layout) hspan
  rw [integerFitsCoreType_iff hl, wrapInteger, hl]
  unfold layoutSpan at *
  constructor <;> simp only <;> omega

/-- A result that fits is not changed. -/
theorem wrapInteger_eq {valueType : Ty} {value : Int}
    (h : integerFitsCoreType valueType value = true) : wrapInteger valueType value = value := by
  unfold wrapInteger
  split
  · next layout hl =>
      rw [integerFitsCoreType_iff hl] at h
      rw [Int.emod_eq_of_lt (by omega) (by unfold layoutSpan; omega)]
      omega
  · rfl

/-- The nearest integer to a quotient, exact halves away from zero. -/
def roundedIntegerDivision (dividend divisor : Int) : Int :=
  let quotient := dividend.tdiv divisor
  let remainder := dividend.tmod divisor
  if 2 * (remainder.natAbs : Int) ≥ divisor.natAbs then quotient + dividend.sign * divisor.sign
  else quotient

example : roundedIntegerDivision 7 2 = 4 ∧ roundedIntegerDivision (-7) 2 = -4 ∧
    roundedIntegerDivision 1 3 = 0 := by decide

/-- The power of an integer whose exponent is read as unsigned at the width of the type. -/
def integerPower (valueType : Ty) (base exponent : Int) : Int :=
  match integerLayout? valueType with
  | some layout => base ^ (exponent % layoutSpan layout).toNat
  | none => base ^ exponent.toNat

/-! ## Primitives -/

/-- What an eager primitive makes of its operands. -/
inductive PrimitiveResult (φ : Type)
  | result (value : Datum φ)
  | stops (trap : Trap)
  | undefined

section Primitives

variable (platform : Platform)

/-- Truth in a condition: a number is false when it is zero. -/
def truth : Datum platform.Floating → Option Bool
  | .boolean value => some value
  | .integer value => some (value ≠ 0)
  | .floating value => some (platform.floatingTruth value)
  | _ => none

/-- An operation on two integers whose result has the given type. -/
def applyInteger (primitive : CorePrimitive) (valueType : Ty) (left right : Int) :
    PrimitiveResult platform.Floating :=
  let integer value : PrimitiveResult platform.Floating := .result (.integer (wrapInteger valueType value))
  let boolean value : PrimitiveResult platform.Floating := .result (.boolean value)
  -- the width of the shifted value
  let inShiftRange := 0 ≤ right ∧ right < (coreIntegerBitWidth valueType).getD 0
  match primitive with
  | .coreAdd => integer (left + right)
  | .coreSubtract => integer (left - right)
  | .coreMultiply => integer (left * right)
  | .coreDivide => if right = 0 then .stops .divisionByZero else integer (left.tdiv right)
  | .coreFloorDivide =>
      if right = 0 then .stops .divisionByZero else integer (roundedIntegerDivision left right)
  | .coreRemainder => if right = 0 then .stops .divisionByZero else integer (left.tmod right)
  | .corePower => integer (integerPower valueType left right)
  | .coreShiftLeft =>
      if inShiftRange then integer (left <<< right.toNat) else .stops .shiftOutOfRange
  | .coreShiftRight =>
      if inShiftRange then integer (left >>> right.toNat) else .stops .shiftOutOfRange
  | .coreBitwiseAnd => integer (left.land right)
  | .coreBitwiseXor => integer (left.xor right)
  | .coreBitwiseOr => integer (left.lor right)
  | .coreLessThan => boolean (left < right)
  | .coreLessEqual => boolean (left ≤ right)
  | .coreGreaterThan => boolean (left > right)
  | .coreGreaterEqual => boolean (left ≥ right)
  | .coreEqual => boolean (left = right)
  | .coreNotEqual => boolean (left ≠ right)
  | _ => .undefined

/-- An operation on two floating-point numbers. -/
def applyFloating (primitive : CorePrimitive) (valueType : Ty) (left right : platform.Floating) :
    PrimitiveResult platform.Floating :=
  if primitive.isComparison then .result (.boolean (platform.floatingCompare primitive left right))
  else if primitive = .coreFloorDivide then
    .result (.integer (wrapInteger valueType (platform.floatingRounded left right)))
  else .result (.floating (platform.floatingOperation primitive valueType [left, right]))

/-- Equality of two Booleans or two references. -/
def applyEquality (primitive : CorePrimitive) (equal : Bool) : PrimitiveResult platform.Floating :=
  match primitive with
  | .coreEqual => .result (.boolean equal)
  | .coreNotEqual => .result (.boolean !equal)
  | _ => .undefined

/-- An eager primitive on one operand. -/
def applyUnary (primitive : CorePrimitive) (valueType : Ty) (operand : Datum platform.Floating) :
    PrimitiveResult platform.Floating :=
  match primitive, operand with
  | .coreNegate, .integer value => .result (.integer (wrapInteger valueType (-value)))
  | .coreNegate, .floating value =>
      .result (.floating (platform.floatingOperation .coreNegate valueType [value]))
  | .coreBitwiseNot, .integer value => .result (.integer (wrapInteger valueType (-value - 1)))
  | .coreLogicalNot, value =>
      match truth platform value with
      | some flag => .result (.boolean !flag)
      | none => .undefined
  | _, _ => .undefined

/-- Whether the object on the left has the type with the identity on the right. -/
def applyTypeTest (subject : Datum platform.Floating) :
    Datum platform.Floating → PrimitiveResult platform.Floating
  | .integer identity => .result (.boolean (platform.typeIs subject identity))
  | _ => .undefined

/-- An eager primitive on two operands of one type. -/
def applyBinary (primitive : CorePrimitive) (valueType : Ty) (left right : Datum platform.Floating) :
    PrimitiveResult platform.Floating :=
  match left, right with
  | .integer left, .integer right => applyInteger platform primitive valueType left right
  | .floating left, .floating right => applyFloating platform primitive valueType left right
  | .boolean left, .boolean right => applyEquality platform primitive (left = right)
  | left, right => applyEquality platform primitive (platform.identical left right)

/-- An eager primitive: every operand has been evaluated. -/
def applyPrimitive (primitive : CorePrimitive) (valueType : Ty) :
    List (Datum platform.Floating) → PrimitiveResult platform.Floating
  | [operand] => applyUnary platform primitive valueType operand
  | [left, right] =>
      if primitive = .coreTypeIs then applyTypeTest platform left right
      else applyBinary platform primitive valueType left right
  | _ => .undefined

/-- The value of a literal. -/
def literalValue (literal : CoreLiteral) (valueType : Ty) : Value platform.Floating :=
  match literal with
  | .coreInteger value => .integer value
  | .coreFloating spelling => .floating (platform.floatingLiteral valueType spelling)
  | .coreString text => .text text
  | .coreBoolean value => .boolean value
  | .coreUnit => .unit
  | .coreNull => .null

end Primitives

end Tala.Core
