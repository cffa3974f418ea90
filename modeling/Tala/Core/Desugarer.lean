import Tala.Core.IR
import Tala.Syntax.Completion

/-!
# `Core.Desugarer` — operators in Core

The lowering of literals, operators and the two choices `?:` to a Core expression. The only state it
carries from operand to operand is the next free symbol. A choice of a string, and an operand that never
completes, are lowered to statements; `lowerOperands` has no Core expression for them, and none for the
other forms, which name a local, a member or a callable.
-/

namespace Tala.Core

open Tala.Syntax

/-- The type of a statement without a value. -/
def voidType : Ty := namedType "void"

/-- `expressionAnnotation`: the type the checker annotated an expression with. -/
def expressionAnnotationOf {name : Type} : Expression name → Ty
  | .nameExpression _ _ valueType => valueType
  | .literalExpression _ _ valueType => valueType
  | .memberAccessExpression _ _ _ valueType => valueType
  | .methodReferenceExpression _ _ _ valueType => valueType
  | .callExpression _ _ _ valueType => valueType
  | .unaryExpression _ _ _ valueType => valueType
  | .binaryExpression _ _ _ _ valueType => valueType
  | .isPatternExpression _ _ _ valueType => valueType
  | .conditionalExpression _ _ _ _ valueType => valueType
  | .coalesceExpression _ _ _ valueType => valueType
  | .assignmentExpression _ _ _ _ valueType => valueType
  | .incrementExpression _ _ _ valueType => valueType
  | .loopExpression _ _ valueType => valueType
  | .blockExpression _ _ valueType => valueType
  | .matchExpression _ _ _ valueType => valueType
  | .callableExpression _ _ _ _ _ valueType => valueType

/-! ## Types and literals -/

/-- The integer type of the values of an enum. -/
def enumUnderlyingType : Ty → Option Ty
  | .namedType ["enum", _] (.typeTemplateArgument underlying :: _) => some underlying
  | _ => none

mutual

/-- A type as it crosses into Core: no result is unit, and a value of an enum is one of its underlying
type. -/
def lowerBoundaryType (valueType : Ty) : Ty :=
  if valueType = voidType then unitType
  else
    match valueType with
    | .functionType parameters result => .functionType (lowerBoundaryTypes parameters) (lowerBoundaryType result)
    | .namedType name arguments =>
        match enumUnderlyingType (.namedType name arguments) with
        | some underlying => underlying
        | none => .namedType name (lowerTemplateArguments arguments)
    | other => other
termination_by structural valueType

def lowerBoundaryTypes : List Ty → List Ty
  | [] => []
  | valueType :: remaining => lowerBoundaryType valueType :: lowerBoundaryTypes remaining
termination_by structural types => types

def lowerTemplateArgument : TemplateArgument → TemplateArgument
  | .typeTemplateArgument valueType => .typeTemplateArgument (lowerBoundaryType valueType)
  | .valueTemplateArgument value => .valueTemplateArgument value
termination_by structural argument => argument

def lowerTemplateArguments : List TemplateArgument → List TemplateArgument
  | [] => []
  | argument :: remaining => lowerTemplateArgument argument :: lowerTemplateArguments remaining
termination_by structural arguments => arguments

end

def lowerLiteral (valueType : Ty) (literal : Literal) : CoreLiteral :=
  match literal with
  | .integerLiteral value => if valueType = boolType then .coreBoolean (value ≠ 0) else .coreInteger value
  | .floatingLiteral spelling => .coreFloating spelling
  | .characterLiteral value => .coreInteger value
  | .booleanLiteral value => .coreBoolean value
  | .stringLiteral value => .coreString value
  | .unitLiteral => .coreUnit

/-! ## Operators -/

def lowerUnary : UnaryOperator → CorePrimitive
  | .unaryNegate => .coreNegate
  | .logicalNot => .coreLogicalNot
  | .bitwiseNot => .coreBitwiseNot
  | .unaryPlus => .coreAdd

def lowerBinary : BinaryOperator → CorePrimitive
  | .add => .coreAdd
  | .subtract => .coreSubtract
  | .multiply => .coreMultiply
  | .divide => .coreDivide
  | .floorDivide => .coreFloorDivide
  | .remainder => .coreRemainder
  | .power => .corePower
  | .shiftLeft => .coreShiftLeft
  | .shiftRight => .coreShiftRight
  | .bitwiseAnd => .coreBitwiseAnd
  | .bitwiseXor => .coreBitwiseXor
  | .bitwiseOr => .coreBitwiseOr
  | .lessThan => .coreLessThan
  | .lessEqual => .coreLessEqual
  | .greaterThan => .coreGreaterThan
  | .greaterEqual => .coreGreaterEqual
  | .equal => .coreEqual
  | .notEqual => .coreNotEqual
  | .logicalAnd => .coreLogicalAnd
  | .logicalOr => .coreLogicalOr

/-! ## Expressions -/

def freshCoalesceSubject (next : Int) : ResolvedName := ⟨next, "$coalesce" ++ toString next⟩

/-- The Core expression of a source expression, and the next free symbol. -/
def lowerOperands : Expression ResolvedName → Int → Option (CoreExpression × Int)
  | .literalExpression _ literal valueType => fun next =>
      let loweredType := lowerBoundaryType valueType
      some (.coreLiteral (lowerLiteral loweredType literal) loweredType, next)
  | .unaryExpression _ operator value valueType => fun next => do
      let (lowered, next) ← lowerOperands value next
      some (if operator = .unaryPlus then lowered
        else .corePrimitive (lowerUnary operator) [lowered] (lowerBoundaryType valueType), next)
  | .binaryExpression _ operator left right valueType => fun next =>
      if isShortCircuit operator && doesNotComplete right then none
      else do
        let (loweredLeft, next) ← lowerOperands left next
        let (loweredRight, next) ← lowerOperands right next
        some (.corePrimitive (lowerBinary operator) [loweredLeft, loweredRight] (lowerBoundaryType valueType), next)
  | .conditionalExpression _ condition first second valueType => fun next =>
      let loweredType := lowerBoundaryType valueType
      if valueType = voidType || doesNotComplete first || doesNotComplete second then none
      -- a string is selected into a variable
      else if loweredType = stringType then none
      else do
        let (loweredCondition, next) ← lowerOperands condition next
        let (loweredFirst, next) ← lowerOperands first next
        let (loweredSecond, next) ← lowerOperands second next
        some (.coreConditional loweredCondition loweredFirst loweredSecond loweredType, next)
  | .coalesceExpression _ left fallback valueType => fun next =>
      if doesNotComplete fallback then none
      else do
        let (loweredLeft, next) ← lowerOperands left next
        let (loweredFallback, next) ← lowerOperands fallback next
        let subjectName := freshCoalesceSubject next
        let loweredType := lowerBoundaryType valueType
        let subjectRead := CoreExpression.coreVariable subjectName loweredType
        some (.coreLet subjectName loweredType loweredLeft
          (.coreConditional subjectRead subjectRead loweredFallback loweredType) loweredType, next + 1)
  | _ => fun _ => none

/-! ### What a lowering consists of -/

section Parts

variable {span : SourceSpan} {left right fallback value condition first second : Expression ResolvedName}
  {valueType : Ty} {next next' : Int} {core : CoreExpression}

theorem lowerOperands_unary {operator : UnaryOperator}
    (h : lowerOperands (.unaryExpression span operator value valueType) next = some (core, next')) :
    ∃ lowered, lowerOperands value next = some (lowered, next') ∧ core = if operator = .unaryPlus then lowered
      else .corePrimitive (lowerUnary operator) [lowered] (lowerBoundaryType valueType) := by
  simp only [lowerOperands, bind, Option.bind_eq_some_iff, Prod.exists] at h
  obtain ⟨lowered, between, hvalue, h⟩ := h
  cases h
  exact ⟨_, hvalue, rfl⟩

theorem lowerOperands_binary {operator : BinaryOperator}
    (h : lowerOperands (.binaryExpression span operator left right valueType) next = some (core, next')) :
    ∃ loweredLeft loweredRight between, lowerOperands left next = some (loweredLeft, between) ∧
      lowerOperands right between = some (loweredRight, next') ∧
      core = .corePrimitive (lowerBinary operator) [loweredLeft, loweredRight] (lowerBoundaryType valueType) := by
  simp only [lowerOperands, bind] at h
  split at h
  · cases h
  simp only [Option.bind_eq_some_iff, Prod.exists] at h
  obtain ⟨loweredLeft, between, hleft, loweredRight, after, hright, h⟩ := h
  cases h
  exact ⟨_, _, _, hleft, hright, rfl⟩

theorem lowerOperands_conditional
    (h : lowerOperands (.conditionalExpression span condition first second valueType) next = some (core, next')) :
    ∃ loweredCondition loweredFirst loweredSecond between after,
      lowerOperands condition next = some (loweredCondition, between) ∧
      lowerOperands first between = some (loweredFirst, after) ∧
      lowerOperands second after = some (loweredSecond, next') ∧
      core = .coreConditional loweredCondition loweredFirst loweredSecond (lowerBoundaryType valueType) := by
  simp only [lowerOperands, bind] at h
  split at h
  · cases h
  split at h
  · cases h
  simp only [Option.bind_eq_some_iff, Prod.exists] at h
  obtain ⟨loweredCondition, between, hcondition, loweredFirst, after, hfirst, loweredSecond, last, hsecond, h⟩ := h
  cases h
  exact ⟨_, _, _, _, _, hcondition, hfirst, hsecond, rfl⟩

theorem lowerOperands_coalesce
    (h : lowerOperands (.coalesceExpression span left fallback valueType) next = some (core, next')) :
    ∃ loweredLeft loweredFallback between after, lowerOperands left next = some (loweredLeft, between) ∧
      lowerOperands fallback between = some (loweredFallback, after) ∧
      core = .coreLet (freshCoalesceSubject after) (lowerBoundaryType valueType) loweredLeft
        (.coreConditional (.coreVariable (freshCoalesceSubject after) (lowerBoundaryType valueType))
          (.coreVariable (freshCoalesceSubject after) (lowerBoundaryType valueType)) loweredFallback
          (lowerBoundaryType valueType)) (lowerBoundaryType valueType) := by
  simp only [lowerOperands, bind] at h
  split at h
  · cases h
  simp only [Option.bind_eq_some_iff, Prod.exists] at h
  obtain ⟨loweredLeft, between, hleft, loweredFallback, after, hfallback, h⟩ := h
  cases h
  exact ⟨_, _, _, _, hleft, hfallback, rfl⟩

end Parts

end Tala.Core
