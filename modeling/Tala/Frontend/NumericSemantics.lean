import Tala.Core.Scalar
import Tala.Syntax.Tree

/-!
# `Frontend.NumericSemantics` — scalar types and the rules of operators

The catalog of scalar types and the types the numeric operators give their results. A rule always names a
type; that it accepts its operands is the absence of an error. The layouts of Core are the widths and the
families of this catalog (`integerLayout_of_isIntegerType`).
-/

namespace Tala.Frontend

open Tala.Core Tala.Syntax

/-! ## Scalar types -/

inductive ScalarFamily
  | characterFamily | booleanFamily | signedIntegerFamily | unsignedIntegerFamily | floatingFamily
  deriving DecidableEq, Repr

inductive ScalarType
  | characterScalar | booleanScalar | byteScalar | shortScalar | longScalar | intScalar | longIntScalar
  | uByteScalar | uShortScalar | uLongScalar | uIntScalar | uLongIntScalar | sFloatScalar | lFloatScalar
  | floatScalar | doubleScalar
  deriving DecidableEq, Repr

def scalarTypes : List ScalarType :=
  [.characterScalar, .booleanScalar, .byteScalar, .shortScalar, .longScalar, .intScalar, .longIntScalar,
    .uByteScalar, .uShortScalar, .uLongScalar, .uIntScalar, .uLongIntScalar, .sFloatScalar, .lFloatScalar,
    .floatScalar, .doubleScalar]

def scalarTypeName : ScalarType → String
  | .characterScalar => "char"
  | .booleanScalar => "bool"
  | .byteScalar => "byte"
  | .shortScalar => "short"
  | .longScalar => "long"
  | .intScalar => "int"
  | .longIntScalar => "longint"
  | .uByteScalar => "ubyte"
  | .uShortScalar => "ushort"
  | .uLongScalar => "ulong"
  | .uIntScalar => "uint"
  | .uLongIntScalar => "ulongint"
  | .sFloatScalar => "sfloat"
  | .lFloatScalar => "lfloat"
  | .floatScalar => "float"
  | .doubleScalar => "double"

def scalarTypeWidth : ScalarType → Nat
  | .characterScalar => 32
  | .booleanScalar => 8
  | .byteScalar => 8
  | .shortScalar => 16
  | .longScalar => 32
  | .intScalar => 64
  | .longIntScalar => 128
  | .uByteScalar => 8
  | .uShortScalar => 16
  | .uLongScalar => 32
  | .uIntScalar => 64
  | .uLongIntScalar => 128
  | .sFloatScalar => 16
  | .lFloatScalar => 32
  | .floatScalar => 64
  | .doubleScalar => 128

def scalarTypeFamily : ScalarType → ScalarFamily
  | .characterScalar => .characterFamily
  | .booleanScalar => .booleanFamily
  | .byteScalar | .shortScalar | .longScalar | .intScalar | .longIntScalar => .signedIntegerFamily
  | .uByteScalar | .uShortScalar | .uLongScalar | .uIntScalar | .uLongIntScalar => .unsignedIntegerFamily
  | .sFloatScalar | .lFloatScalar | .floatScalar | .doubleScalar => .floatingFamily

/-- The scalar type a name without arguments stands for. -/
def typeToScalarType : Ty → Option ScalarType
  | .namedType [name] [] => (scalarTypes.map fun scalar => (scalarTypeName scalar, scalar)).lookup name
  | _ => none

def isIntegerType (valueType : Ty) : Bool :=
  match typeToScalarType valueType with
  | some scalar => [ScalarFamily.signedIntegerFamily, .unsignedIntegerFamily].contains (scalarTypeFamily scalar)
  | none => false

def isSignedIntegerType (valueType : Ty) : Bool :=
  match typeToScalarType valueType with
  | some scalar => scalarTypeFamily scalar = .signedIntegerFamily
  | none => false

def isFloatingType (valueType : Ty) : Bool :=
  match typeToScalarType valueType with
  | some scalar => scalarTypeFamily scalar = .floatingFamily
  | none => false

def isNumericType (valueType : Ty) : Bool := isIntegerType valueType || isFloatingType valueType

/-! ## Rules -/

/-- Why an operator does not accept its operands. -/
inductive NumericRuleError
  | unaryRequiresNumeric (operator : UnaryOperator) (operand : Ty)
  | unaryRequiresInteger (operator : UnaryOperator) (operand : Ty)
  | negationRequiresSignedNumeric (operand : Ty)
  | logicalRequiresBooleanContext (operator : UnaryOperator) (operand : Ty)
  | binaryRequiresMatchingTypes (operator : BinaryOperator) (left right : Ty)
  | binaryRequiresNumericType (operator : BinaryOperator) (operand : Ty)
  | binaryRequiresIntegerType (operator : BinaryOperator) (operand : Ty)
  | binaryRequiresBooleanContext (operator : BinaryOperator) (left right : Ty)
  deriving DecidableEq

/-- The type of a result, assigned also where there is an error. -/
structure NumericRuleResult where
  numericRuleType : Ty
  numericRuleError : Option NumericRuleError

def success (valueType : Ty) : NumericRuleResult := ⟨valueType, none⟩

def failure (valueType : Ty) (issue : NumericRuleError) : NumericRuleResult := ⟨valueType, some issue⟩

def acceptsBooleanContext (valueType : Ty) : Bool := valueType = boolType || isNumericType valueType

def unaryNumericRule (operator : UnaryOperator) (operandType : Ty) : NumericRuleResult :=
  match operator with
  | .logicalNot =>
      if acceptsBooleanContext operandType then success boolType
      else failure boolType (.logicalRequiresBooleanContext operator operandType)
  | .bitwiseNot =>
      if isIntegerType operandType then success operandType
      else failure operandType (.unaryRequiresInteger operator operandType)
  | .unaryPlus =>
      if isNumericType operandType then success operandType
      else failure operandType (.unaryRequiresNumeric operator operandType)
  | .unaryNegate =>
      if isSignedIntegerType operandType || isFloatingType operandType then success operandType
      else failure operandType (.negationRequiresSignedNumeric operandType)

def isComparison (operator : BinaryOperator) : Bool :=
  [BinaryOperator.lessThan, .lessEqual, .greaterThan, .greaterEqual, .equal, .notEqual].contains operator

def resultFor (operator : BinaryOperator) (operandType : Ty) : Ty :=
  if isComparison operator then boolType
  else if operator = .floorDivide ∧ isFloatingType operandType then intType
  else operandType

def binaryNumericRule (operator : BinaryOperator) (leftType rightType : Ty) : NumericRuleResult :=
  if [BinaryOperator.logicalAnd, .logicalOr].contains operator then
    if acceptsBooleanContext leftType && acceptsBooleanContext rightType then success boolType
    else failure boolType (.binaryRequiresBooleanContext operator leftType rightType)
  else if [BinaryOperator.equal, .notEqual].contains operator then
    if leftType = rightType then success boolType
    else failure boolType (.binaryRequiresMatchingTypes operator leftType rightType)
  else if leftType ≠ rightType then
    failure (resultFor operator leftType) (.binaryRequiresMatchingTypes operator leftType rightType)
  else if [BinaryOperator.shiftLeft, .shiftRight, .bitwiseAnd, .bitwiseXor, .bitwiseOr].contains operator
      && !isIntegerType leftType then
    failure leftType (.binaryRequiresIntegerType operator leftType)
  else if !isNumericType leftType then
    failure (resultFor operator leftType) (.binaryRequiresNumericType operator leftType)
  else success (resultFor operator leftType)

/-! ## The catalog and the layouts of Core -/

variable {valueType : Ty}

theorem typeToScalarType_eq_some {scalar : ScalarType}
    (h : typeToScalarType valueType = some scalar) : valueType = namedType (scalarTypeName scalar) := by
  unfold typeToScalarType at h
  split at h
  · next name =>
      obtain ⟨before, after, hsplit, -⟩ := List.lookup_eq_some_iff.mp h
      have hmem : (name, scalar) ∈ scalarTypes.map fun scalar => (scalarTypeName scalar, scalar) := by
        rw [hsplit]
        simp
      obtain ⟨listed, -, hlisted⟩ := List.mem_map.mp hmem
      cases hlisted
      rfl
  · cases h

/-- **An integer type of the frontend is one of Core**, with the width and the sign of its scalar. -/
theorem integerLayout_of_isIntegerType (h : isIntegerType valueType = true) :
    ∃ scalar, typeToScalarType valueType = some scalar ∧ integerLayout? valueType
      = some (decide (scalarTypeFamily scalar = .signedIntegerFamily), scalarTypeWidth scalar) ∧
        (scalarTypeFamily scalar = .unsignedIntegerFamily ↔ scalarTypeFamily scalar ≠ .signedIntegerFamily) := by
  unfold isIntegerType at h
  cases hscalar : typeToScalarType valueType with
  | none => simp [hscalar] at h
  | some scalar =>
      rw [hscalar] at h
      refine ⟨scalar, rfl, ?_⟩
      rw [typeToScalarType_eq_some hscalar]
      cases scalar <;> first | exact absurd h (by decide) | exact ⟨by decide, by decide⟩

theorem isIntegerType_of_signed (h : isSignedIntegerType valueType = true) :
    isIntegerType valueType = true := by
  unfold isSignedIntegerType at h
  unfold isIntegerType
  cases hscalar : typeToScalarType valueType with
  | none => simp [hscalar] at h
  | some scalar =>
      rw [hscalar] at h
      simp [of_decide_eq_true h]

theorem isCoreIntegerType_of_isIntegerType (h : isIntegerType valueType = true) :
    isCoreIntegerType valueType = true := by
  obtain ⟨scalar, -, hlayout, -⟩ := integerLayout_of_isIntegerType h
  exact isCoreIntegerType_iff_layout.mpr ⟨_, hlayout⟩

/-- No floating type is an integer type of Core. -/
theorem not_isCoreIntegerType_of_isFloatingType (h : isFloatingType valueType = true) :
    isCoreIntegerType valueType = false ∧ valueType ≠ boolType := by
  unfold isFloatingType at h
  cases hscalar : typeToScalarType valueType with
  | none => simp [hscalar] at h
  | some scalar =>
      rw [hscalar] at h
      rw [typeToScalarType_eq_some hscalar]
      cases scalar <;> first | exact absurd h (by decide) | exact ⟨by decide, by decide⟩

end Tala.Frontend
