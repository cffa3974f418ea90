import Tala.Core.Scalar
import Tala.Core.RuntimeCall

/-!
# `Core.IR` — the typed Core tree

Expressions carry their result type, statements keep source-level control flow, and a module is a list
of functions with its source-ownership metadata. `moduleSymbols` is the inventory of every symbol a
module mentions, from which passes draw fresh ones.

Expressions, captures and statements are one mutually inductive family. Its equality is decided by
structural functions, so two trees can be compared by evaluation.
-/

namespace Tala.Core

open Tala

/-- Literal values of the typed expression graph. -/
inductive CoreLiteral
  | coreInteger (value : Int)
  | coreFloating (spelling : String)
  | coreString (text : String)
  | coreBoolean (value : Bool)
  | coreUnit
  | coreNull
  deriving DecidableEq, Repr

/-- Primitive operations with explicit operand and result nodes. -/
inductive CorePrimitive
  | coreAdd | coreSubtract | coreMultiply | coreDivide | coreFloorDivide | coreRemainder
  | coreLessThan | coreLessEqual | coreGreaterThan | coreGreaterEqual | coreEqual | coreNotEqual
  | coreLogicalAnd | coreLogicalOr | coreNegate | coreLogicalNot | corePower
  | coreShiftLeft | coreShiftRight | coreBitwiseAnd | coreBitwiseXor | coreBitwiseOr | coreBitwiseNot
  | coreTypeIs | coreMemoize | coreRuntimeCall
  deriving DecidableEq, Repr

mutual

/-- Typed expression graph consumed by verification and optimization. -/
inductive CoreExpression
  | coreVariable (name : ResolvedName) (valueType : Ty)
  | coreLiteral (literal : CoreLiteral) (valueType : Ty)
  | coreApply (callee : CoreExpression) (arguments : List CoreExpression) (valueType : Ty)
  | corePrimitive (primitive : CorePrimitive) (arguments : List CoreExpression) (valueType : Ty)
  | coreLet (name : ResolvedName) (bindingType : Ty) (value body : CoreExpression) (valueType : Ty)
  | coreConditional (condition whenTrue whenFalse : CoreExpression) (valueType : Ty)
  | coreClosure (captures : List CoreCapture) (parameters : List (ResolvedName × Ty))
      (returnType : Ty) (body : List CoreStatement) (valueType : Ty)

/-- Captured binding and the expression evaluated for it when the closure is created. -/
inductive CoreCapture
  | coreCapture (mode : CaptureMode) (name : ResolvedName) (type : Ty) (value : CoreExpression)

/-- Structured statements; loop forms stay explicit until CorePrep builds blocks. -/
inductive CoreStatement
  | coreBind (name : ResolvedName) (type : Ty) («mutable» : Bool) (value : CoreExpression)
  | coreAssign (name : ResolvedName) (value : CoreExpression)
  | coreReturn (value : CoreExpression)
  | coreIf (condition : CoreExpression) (whenTrue whenFalse : List CoreStatement)
  | coreEvaluate (value : CoreExpression)
  | coreWhile (condition : CoreExpression) (body : List CoreStatement)
  | coreDoWhile (body : List CoreStatement) (condition : CoreExpression)
  | coreFor (condition : CoreExpression) (body update : List CoreStatement)
  | coreBreak
  | coreContinue

end

namespace CoreCapture

def coreCaptureMode : CoreCapture → CaptureMode | .coreCapture mode _ _ _ => mode
def coreCaptureName : CoreCapture → ResolvedName | .coreCapture _ name _ _ => name
def coreCaptureType : CoreCapture → Ty | .coreCapture _ _ type _ => type
def coreCaptureValue : CoreCapture → CoreExpression | .coreCapture _ _ _ value => value

end CoreCapture

/-- Top-level or member callable lowered into target-independent Core. -/
structure CoreFunction where
  coreFunctionName : ResolvedName
  coreFunctionParameters : List (ResolvedName × Ty)
  coreFunctionReturnType : Ty
  coreFunctionBody : List CoreStatement

/-- A module, with the source files of its functions. -/
structure CoreModule where
  coreModuleName : QualifiedName
  coreModuleFunctions : List CoreFunction
  coreModuleSourceFiles : List String
  coreModuleFunctionSources : List (Int × String)

/-- The explicit result type stored on any expression node. -/
def expressionType : CoreExpression → Ty
  | .coreVariable _ value => value
  | .coreLiteral _ value => value
  | .coreApply _ _ value => value
  | .corePrimitive _ _ value => value
  | .coreLet _ _ _ _ value => value
  | .coreConditional _ _ _ value => value
  | .coreClosure _ _ _ _ value => value

/-- The symbol of a function. -/
def CoreFunction.symbol (function : CoreFunction) : Int :=
  function.coreFunctionName.resolvedSymbol

/-- The callable type of a function. -/
def CoreFunction.type (function : CoreFunction) : Ty :=
  .functionType (function.coreFunctionParameters.map Prod.snd) function.coreFunctionReturnType

/-! ## Equality of trees -/

mutual

def CoreExpression.beq : CoreExpression → CoreExpression → Bool
  | .coreVariable n t, .coreVariable n' t' => n = n' && t = t'
  | .coreLiteral l t, .coreLiteral l' t' => l = l' && t = t'
  | .coreApply f as t, .coreApply f' as' t' =>
      CoreExpression.beq f f' && CoreExpression.beqList as as' && t = t'
  | .corePrimitive p as t, .corePrimitive p' as' t' =>
      p = p' && CoreExpression.beqList as as' && t = t'
  | .coreLet n bt v b t, .coreLet n' bt' v' b' t' =>
      n = n' && bt = bt' && CoreExpression.beq v v' && CoreExpression.beq b b' && t = t'
  | .coreConditional c x y t, .coreConditional c' x' y' t' =>
      CoreExpression.beq c c' && CoreExpression.beq x x' && CoreExpression.beq y y' && t = t'
  | .coreClosure cs ps r b t, .coreClosure cs' ps' r' b' t' =>
      CoreCapture.beqList cs cs' && ps = ps' && r = r' && CoreStatement.beqList b b' && t = t'
  | _, _ => false
termination_by structural a => a

def CoreExpression.beqList : List CoreExpression → List CoreExpression → Bool
  | [], [] => true
  | a :: as, b :: bs => CoreExpression.beq a b && CoreExpression.beqList as bs
  | _, _ => false
termination_by structural a => a

def CoreCapture.beq : CoreCapture → CoreCapture → Bool
  | .coreCapture m n t v, .coreCapture m' n' t' v' =>
      m = m' && n = n' && t = t' && CoreExpression.beq v v'
termination_by structural a => a

def CoreCapture.beqList : List CoreCapture → List CoreCapture → Bool
  | [], [] => true
  | a :: as, b :: bs => CoreCapture.beq a b && CoreCapture.beqList as bs
  | _, _ => false
termination_by structural a => a

def CoreStatement.beq : CoreStatement → CoreStatement → Bool
  | .coreBind n t m v, .coreBind n' t' m' v' =>
      n = n' && t = t' && m = m' && CoreExpression.beq v v'
  | .coreAssign n v, .coreAssign n' v' => n = n' && CoreExpression.beq v v'
  | .coreReturn v, .coreReturn v' => CoreExpression.beq v v'
  | .coreIf c x y, .coreIf c' x' y' =>
      CoreExpression.beq c c' && CoreStatement.beqList x x' && CoreStatement.beqList y y'
  | .coreEvaluate v, .coreEvaluate v' => CoreExpression.beq v v'
  | .coreWhile c b, .coreWhile c' b' => CoreExpression.beq c c' && CoreStatement.beqList b b'
  | .coreDoWhile b c, .coreDoWhile b' c' => CoreStatement.beqList b b' && CoreExpression.beq c c'
  | .coreFor c b u, .coreFor c' b' u' =>
      CoreExpression.beq c c' && CoreStatement.beqList b b' && CoreStatement.beqList u u'
  | .coreBreak, .coreBreak => true
  | .coreContinue, .coreContinue => true
  | _, _ => false
termination_by structural a => a

def CoreStatement.beqList : List CoreStatement → List CoreStatement → Bool
  | [], [] => true
  | a :: as, b :: bs => CoreStatement.beq a b && CoreStatement.beqList as bs
  | _, _ => false
termination_by structural a => a

end

mutual

theorem CoreExpression.beq_iff : ∀ a b : CoreExpression, CoreExpression.beq a b = true ↔ a = b
  | .coreVariable _ _, b => by cases b <;> simp [CoreExpression.beq]
  | .coreLiteral _ _, b => by cases b <;> simp [CoreExpression.beq]
  | .coreApply f as _, b => by
      cases b <;>
        simp [CoreExpression.beq, CoreExpression.beq_iff f, CoreExpression.beqList_iff as, and_assoc]
  | .corePrimitive _ as _, b => by
      cases b <;> simp [CoreExpression.beq, CoreExpression.beqList_iff as, and_assoc]
  | .coreLet _ _ v e _, b => by
      cases b <;>
        simp [CoreExpression.beq, CoreExpression.beq_iff v, CoreExpression.beq_iff e, and_assoc]
  | .coreConditional c x y _, b => by
      cases b <;>
        simp [CoreExpression.beq, CoreExpression.beq_iff c, CoreExpression.beq_iff x,
          CoreExpression.beq_iff y, and_assoc]
  | .coreClosure cs _ _ body _, b => by
      cases b <;>
        simp [CoreExpression.beq, CoreCapture.beqList_iff cs, CoreStatement.beqList_iff body,
          and_assoc]

theorem CoreExpression.beqList_iff :
    ∀ a b : List CoreExpression, CoreExpression.beqList a b = true ↔ a = b
  | [], b => by cases b <;> simp [CoreExpression.beqList]
  | a :: as, b => by
      cases b <;>
        simp [CoreExpression.beqList, CoreExpression.beq_iff a, CoreExpression.beqList_iff as]

theorem CoreCapture.beq_iff : ∀ a b : CoreCapture, CoreCapture.beq a b = true ↔ a = b
  | .coreCapture _ _ _ v, b => by
      cases b; simp [CoreCapture.beq, CoreExpression.beq_iff v, and_assoc]

theorem CoreCapture.beqList_iff : ∀ a b : List CoreCapture, CoreCapture.beqList a b = true ↔ a = b
  | [], b => by cases b <;> simp [CoreCapture.beqList]
  | a :: as, b => by
      cases b <;> simp [CoreCapture.beqList, CoreCapture.beq_iff a, CoreCapture.beqList_iff as]

theorem CoreStatement.beq_iff : ∀ a b : CoreStatement, CoreStatement.beq a b = true ↔ a = b
  | .coreBind _ _ _ v, b => by
      cases b <;> simp [CoreStatement.beq, CoreExpression.beq_iff v, and_assoc]
  | .coreAssign _ v, b => by cases b <;> simp [CoreStatement.beq, CoreExpression.beq_iff v]
  | .coreReturn v, b => by cases b <;> simp [CoreStatement.beq, CoreExpression.beq_iff v]
  | .coreIf c x y, b => by
      cases b <;>
        simp [CoreStatement.beq, CoreExpression.beq_iff c, CoreStatement.beqList_iff x,
          CoreStatement.beqList_iff y, and_assoc]
  | .coreEvaluate v, b => by cases b <;> simp [CoreStatement.beq, CoreExpression.beq_iff v]
  | .coreWhile c x, b => by
      cases b <;>
        simp [CoreStatement.beq, CoreExpression.beq_iff c, CoreStatement.beqList_iff x]
  | .coreDoWhile x c, b => by
      cases b <;>
        simp [CoreStatement.beq, CoreExpression.beq_iff c, CoreStatement.beqList_iff x]
  | .coreFor c x y, b => by
      cases b <;>
        simp [CoreStatement.beq, CoreExpression.beq_iff c, CoreStatement.beqList_iff x,
          CoreStatement.beqList_iff y, and_assoc]
  | .coreBreak, b => by cases b <;> simp [CoreStatement.beq]
  | .coreContinue, b => by cases b <;> simp [CoreStatement.beq]

theorem CoreStatement.beqList_iff :
    ∀ a b : List CoreStatement, CoreStatement.beqList a b = true ↔ a = b
  | [], b => by cases b <;> simp [CoreStatement.beqList]
  | a :: as, b => by
      cases b <;>
        simp [CoreStatement.beqList, CoreStatement.beq_iff a, CoreStatement.beqList_iff as]

end

instance : DecidableEq CoreExpression := fun a b => decidable_of_iff _ (CoreExpression.beq_iff a b)
instance : DecidableEq CoreCapture := fun a b => decidable_of_iff _ (CoreCapture.beq_iff a b)
instance : DecidableEq CoreStatement := fun a b => decidable_of_iff _ (CoreStatement.beq_iff a b)

deriving instance DecidableEq for CoreFunction
deriving instance DecidableEq for CoreModule

/-! ## Induction on expressions -/

section Induction

variable {P : CoreExpression → Prop}
  (coreVariable : ∀ name valueType, P (.coreVariable name valueType))
  (coreLiteral : ∀ literal valueType, P (.coreLiteral literal valueType))
  (coreApply : ∀ callee arguments valueType, P callee → (∀ argument ∈ arguments, P argument) →
    P (.coreApply callee arguments valueType))
  (corePrimitive : ∀ primitive arguments valueType, (∀ argument ∈ arguments, P argument) →
    P (.corePrimitive primitive arguments valueType))
  (coreLet : ∀ name bindingType value body valueType, P value → P body →
    P (.coreLet name bindingType value body valueType))
  (coreConditional : ∀ condition whenTrue whenFalse valueType, P condition → P whenTrue →
    P whenFalse → P (.coreConditional condition whenTrue whenFalse valueType))
  (coreClosure : ∀ captures parameters returnType body valueType,
    (∀ capture ∈ captures, P capture.coreCaptureValue) →
    P (.coreClosure captures parameters returnType body valueType))

include coreVariable coreLiteral coreApply corePrimitive coreLet coreConditional coreClosure

set_option linter.unusedSectionVars false in
mutual

/-- **Induction on an expression.** Operands and captures are reached, the statements in the body of a
closure are not. -/
@[elab_as_elim]
theorem CoreExpression.induct : ∀ expression, P expression
  | .coreVariable name valueType => coreVariable name valueType
  | .coreLiteral literal valueType => coreLiteral literal valueType
  | .coreApply callee arguments valueType =>
      coreApply callee arguments valueType (CoreExpression.induct callee)
        (CoreExpression.inductAll arguments)
  | .corePrimitive primitive arguments valueType =>
      corePrimitive primitive arguments valueType (CoreExpression.inductAll arguments)
  | .coreLet name bindingType value body valueType =>
      coreLet name bindingType value body valueType (CoreExpression.induct value)
        (CoreExpression.induct body)
  | .coreConditional condition whenTrue whenFalse valueType =>
      coreConditional condition whenTrue whenFalse valueType (CoreExpression.induct condition)
        (CoreExpression.induct whenTrue) (CoreExpression.induct whenFalse)
  | .coreClosure captures parameters returnType body valueType =>
      coreClosure captures parameters returnType body valueType
        (CoreExpression.inductCaptures captures)

theorem CoreExpression.inductAll : ∀ expressions : List CoreExpression,
    ∀ expression ∈ expressions, P expression
  | [] => fun _ h => absurd h List.not_mem_nil
  | first :: remaining =>
      List.forall_mem_cons.mpr ⟨CoreExpression.induct first, CoreExpression.inductAll remaining⟩

theorem CoreExpression.inductCaptures : ∀ captures : List CoreCapture,
    ∀ capture ∈ captures, P capture.coreCaptureValue
  | [] => fun _ h => absurd h List.not_mem_nil
  | .coreCapture _ _ _ value :: remaining =>
      List.forall_mem_cons.mpr ⟨CoreExpression.induct value, CoreExpression.inductCaptures remaining⟩

end

end Induction

/-! ## The symbol inventory -/

mutual

/-- Every resolved name an expression mentions, closure bodies included. -/
def coreExpressionSymbols : CoreExpression → List ResolvedName
  | .coreVariable name _ => [name]
  | .coreLiteral _ _ => []
  | .coreApply callee arguments _ =>
      coreExpressionSymbols callee ++ coreExpressionsSymbols arguments
  | .corePrimitive _ arguments _ => coreExpressionsSymbols arguments
  | .coreLet name _ value body _ =>
      name :: (coreExpressionSymbols value ++ coreExpressionSymbols body)
  | .coreConditional condition whenTrue whenFalse _ =>
      coreExpressionSymbols condition ++ coreExpressionSymbols whenTrue
        ++ coreExpressionSymbols whenFalse
  | .coreClosure captures parameters _ body _ =>
      captures.map CoreCapture.coreCaptureName ++ parameters.map Prod.fst
        ++ coreCapturesSymbols captures ++ coreStatementsSymbols body

def coreExpressionsSymbols : List CoreExpression → List ResolvedName
  | [] => []
  | expression :: remaining => coreExpressionSymbols expression ++ coreExpressionsSymbols remaining

/-- The names mentioned by the values of captures. -/
def coreCapturesSymbols : List CoreCapture → List ResolvedName
  | [] => []
  | .coreCapture _ _ _ value :: remaining =>
      coreExpressionSymbols value ++ coreCapturesSymbols remaining

/-- Every resolved name a statement mentions, targets and references. -/
def coreStatementSymbols : CoreStatement → List ResolvedName
  | .coreBind name _ _ value => name :: coreExpressionSymbols value
  | .coreAssign name value => name :: coreExpressionSymbols value
  | .coreReturn value => coreExpressionSymbols value
  | .coreEvaluate value => coreExpressionSymbols value
  | .coreIf condition whenTrue whenFalse =>
      coreExpressionSymbols condition ++ coreStatementsSymbols whenTrue
        ++ coreStatementsSymbols whenFalse
  | .coreWhile condition body => coreExpressionSymbols condition ++ coreStatementsSymbols body
  | .coreDoWhile body condition => coreStatementsSymbols body ++ coreExpressionSymbols condition
  | .coreFor condition body update =>
      coreExpressionSymbols condition ++ coreStatementsSymbols body ++ coreStatementsSymbols update
  | .coreBreak => []
  | .coreContinue => []

def coreStatementsSymbols : List CoreStatement → List ResolvedName
  | [] => []
  | statement :: remaining => coreStatementSymbols statement ++ coreStatementsSymbols remaining

end

/-- The function definition before its parameter and body identities. -/
def coreFunctionSymbols (function : CoreFunction) : List ResolvedName :=
  function.coreFunctionName :: (function.coreFunctionParameters.map Prod.fst
    ++ coreStatementsSymbols function.coreFunctionBody)

/-- Every resolved name observed in a module. -/
def coreModuleSymbols (moduleValue : CoreModule) : List ResolvedName :=
  moduleValue.coreModuleFunctions.flatMap coreFunctionSymbols

/-- Largest of the symbols of some names, at least zero. -/
def maximumSymbol (names : List ResolvedName) : Int :=
  names.foldr (fun name best => max name.resolvedSymbol best) 0

/-- Largest numeric identity observed in the complete tree. -/
def maximumCoreSymbolValue (moduleValue : CoreModule) : Int :=
  maximumSymbol (coreModuleSymbols moduleValue)

/-- First positive identity that cannot collide with the module. -/
def nextCoreSymbolValue (moduleValue : CoreModule) : Int := maximumCoreSymbolValue moduleValue + 1

theorem maximumSymbol_nonneg (names : List ResolvedName) : 0 ≤ maximumSymbol names := by
  induction names with
  | nil => exact le_refl 0
  | cons first remaining ih => exact le_trans ih (le_max_right _ _)

theorem nextCoreSymbolValue_pos (moduleValue : CoreModule) : 0 < nextCoreSymbolValue moduleValue := by
  have := maximumSymbol_nonneg (coreModuleSymbols moduleValue)
  unfold nextCoreSymbolValue maximumCoreSymbolValue
  omega

end Tala.Core
