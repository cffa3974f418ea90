import Tala.Core.IR
import Tala.Core.Specialization

/-!
# `Core.Monomorphization.Discovery` — where Core asks for template types

`discoverTypeOccurrences` records the outermost template types at every place of a module where a type
stands. The template types inside them are the direct dependencies of the outer ones, step by step, so
both together reach every template type of the module (`mem_templateTypes`,
`discoverTypeOccurrences_covers`). A dependency is a smaller type than the one that depends on it
(`typeNodes_dependency`).
-/

namespace Tala.Core.Monomorphization

open Tala Tala.Core

/-! ## Places -/

inductive DemandPathStep
  | functionParameterPath (index : Nat)
  | functionReturnPath
  | statementPath (index : Nat)
  | trueBranchPath
  | falseBranchPath
  | loopBodyPath
  | loopUpdatePath
  | bindingTypePath
  | bindingValuePath
  | assignmentValuePath
  | returnValuePath
  | conditionPath
  | evaluatedValuePath
  | calleePath
  | argumentPath (index : Nat)
  | primitiveOperandPath (index : Nat)
  | expressionResultPath
  | closureCapturePath (index : Nat)
  | closureCaptureTypePath
  | closureCaptureValuePath
  | closureParameterPath (index : Nat)
  | closureReturnPath
  | closureBodyPath
  deriving DecidableEq, Repr

structure DemandLocation where
  demandLocationFunction : ResolvedName
  demandLocationPath : List DemandPathStep
  deriving DecidableEq, Repr

def appendPath (location : DemandLocation) (step : DemandPathStep) : DemandLocation :=
  { location with demandLocationPath := location.demandLocationPath ++ [step] }

structure TypeOccurrence where
  occurrenceType : Ty
  occurrenceLocation : DemandLocation
  deriving DecidableEq

/-- A named type with arguments. Function types are containers whose parts are visited on their own. -/
def specializationCandidate : Ty → Bool
  | .namedType _ arguments => !arguments.isEmpty
  | .functionType _ _ => false
  | .typeVariable _ => false
  | .errorType => false

/-! ## Discovery -/

mutual

/-- The outermost template types of a type. Those inside them become dependencies. -/
def discoverTypeAt (location : DemandLocation) : Ty → List TypeOccurrence
  | .namedType name arguments =>
      if specializationCandidate (.namedType name arguments) then [⟨.namedType name arguments, location⟩]
      else []
  | .functionType parameters result =>
      discoverParameterTypes location 0 parameters
        ++ discoverTypeAt (appendPath location .closureReturnPath) result
  | .typeVariable _ => []
  | .errorType => []

def discoverParameterTypes (location : DemandLocation) (index : Nat) : List Ty → List TypeOccurrence
  | [] => []
  | parameter :: remaining =>
      discoverTypeAt (appendPath location (.closureParameterPath index)) parameter
        ++ discoverParameterTypes location (index + 1) remaining

end

/-- Declared parameters, each under its own step of the path. -/
def discoverDeclared (location : DemandLocation) (step : Nat → DemandPathStep) (index : Nat) :
    List (ResolvedName × Ty) → List TypeOccurrence
  | [] => []
  | (_, parameterType) :: remaining =>
      discoverTypeAt (appendPath location (step index)) parameterType
        ++ discoverDeclared location step (index + 1) remaining

mutual

def discoverExpression (location : DemandLocation) : CoreExpression → List TypeOccurrence
  | .coreVariable _ valueType => discoverTypeAt (appendPath location .expressionResultPath) valueType
  | .coreLiteral _ valueType => discoverTypeAt (appendPath location .expressionResultPath) valueType
  | .coreApply callee arguments valueType =>
      discoverTypeAt (appendPath location .expressionResultPath) valueType
        ++ (discoverExpression (appendPath location .calleePath) callee
          ++ discoverExpressions location .argumentPath 0 arguments)
  | .corePrimitive _ operands valueType =>
      discoverTypeAt (appendPath location .expressionResultPath) valueType
        ++ discoverExpressions location .primitiveOperandPath 0 operands
  | .coreLet _ bindingType value body valueType =>
      discoverTypeAt (appendPath location .expressionResultPath) valueType
        ++ (discoverTypeAt (appendPath location .bindingTypePath) bindingType
          ++ discoverExpression (appendPath location .bindingValuePath) value
          ++ discoverExpression (appendPath location .evaluatedValuePath) body)
  | .coreConditional condition whenTrue whenFalse valueType =>
      discoverTypeAt (appendPath location .expressionResultPath) valueType
        ++ (discoverExpression (appendPath location .conditionPath) condition
          ++ discoverExpression (appendPath location .trueBranchPath) whenTrue
          ++ discoverExpression (appendPath location .falseBranchPath) whenFalse)
  | .coreClosure captures parameters returnType body valueType =>
      discoverTypeAt (appendPath location .expressionResultPath) valueType
        ++ (discoverCaptures location 0 captures
          ++ discoverDeclared location .closureParameterPath 0 parameters
          ++ discoverTypeAt (appendPath location .closureReturnPath) returnType
          ++ discoverStatements (appendPath location .closureBodyPath) 0 body)

def discoverExpressions (location : DemandLocation) (step : Nat → DemandPathStep) (index : Nat) :
    List CoreExpression → List TypeOccurrence
  | [] => []
  | expression :: remaining =>
      discoverExpression (appendPath location (step index)) expression
        ++ discoverExpressions location step (index + 1) remaining

def discoverCaptures (location : DemandLocation) (index : Nat) : List CoreCapture → List TypeOccurrence
  | [] => []
  | capture :: remaining =>
      discoverCapture (appendPath location (.closureCapturePath index)) capture
        ++ discoverCaptures location (index + 1) remaining

def discoverCapture (location : DemandLocation) : CoreCapture → List TypeOccurrence
  | .coreCapture _ _ captureType value =>
      discoverTypeAt (appendPath location .closureCaptureTypePath) captureType
        ++ discoverExpression (appendPath location .closureCaptureValuePath) value

def discoverStatement (location : DemandLocation) : CoreStatement → List TypeOccurrence
  | .coreBind _ bindingType _ value =>
      discoverTypeAt (appendPath location .bindingTypePath) bindingType
        ++ discoverExpression (appendPath location .bindingValuePath) value
  | .coreAssign _ value => discoverExpression (appendPath location .assignmentValuePath) value
  | .coreReturn value => discoverExpression (appendPath location .returnValuePath) value
  | .coreIf condition trueBranch falseBranch =>
      discoverExpression (appendPath location .conditionPath) condition
        ++ discoverStatements (appendPath location .trueBranchPath) 0 trueBranch
        ++ discoverStatements (appendPath location .falseBranchPath) 0 falseBranch
  | .coreEvaluate value => discoverExpression (appendPath location .evaluatedValuePath) value
  | .coreWhile condition body =>
      discoverExpression (appendPath location .conditionPath) condition
        ++ discoverStatements (appendPath location .loopBodyPath) 0 body
  | .coreDoWhile body condition =>
      discoverStatements (appendPath location .loopBodyPath) 0 body
        ++ discoverExpression (appendPath location .conditionPath) condition
  | .coreFor condition body update =>
      discoverExpression (appendPath location .conditionPath) condition
        ++ discoverStatements (appendPath location .loopBodyPath) 0 body
        ++ discoverStatements (appendPath location .loopUpdatePath) 0 update
  | .coreBreak => []
  | .coreContinue => []

def discoverStatements (parent : DemandLocation) (index : Nat) : List CoreStatement → List TypeOccurrence
  | [] => []
  | statement :: remaining =>
      discoverStatement (appendPath parent (.statementPath index)) statement
        ++ discoverStatements parent (index + 1) remaining

end

def discoverFunction (function : CoreFunction) : List TypeOccurrence :=
  let location : DemandLocation := ⟨function.coreFunctionName, []⟩
  discoverDeclared location .functionParameterPath 0 function.coreFunctionParameters
    ++ discoverTypeAt (appendPath location .functionReturnPath) function.coreFunctionReturnType
    ++ discoverStatements location 0 function.coreFunctionBody

def discoverTypeOccurrences (coreModule : CoreModule) : List TypeOccurrence :=
  coreModule.coreModuleFunctions.flatMap discoverFunction

mutual

/-- The template types next inside a type, with the index of the argument they stand in. -/
def directTypeDependencies : Ty → List (Nat × Ty)
  | .namedType _ arguments => argumentDependencies 0 arguments
  | .functionType parameters result =>
      parameterDependencies 0 parameters
        ++ if specializationCandidate result then [(parameters.length, result)]
          else directTypeDependencies result
  | .typeVariable _ => []
  | .errorType => []

def argumentDependencies (index : Nat) : List TemplateArgument → List (Nat × Ty)
  | [] => []
  | .typeTemplateArgument nested :: remaining =>
      (if specializationCandidate nested then [(index, nested)] else directTypeDependencies nested)
        ++ argumentDependencies (index + 1) remaining
  | .valueTemplateArgument _ :: remaining => argumentDependencies (index + 1) remaining

def parameterDependencies (index : Nat) : List Ty → List (Nat × Ty)
  | [] => []
  | parameter :: remaining =>
      (if specializationCandidate parameter then [(index, parameter)] else directTypeDependencies parameter)
        ++ parameterDependencies (index + 1) remaining

end

/-! ## The template types of a type -/

mutual

/-- Every named type with arguments that stands in a type, itself included. -/
def templateTypes : Ty → List Ty
  | .namedType name arguments =>
      (if arguments.isEmpty then [] else [.namedType name arguments]) ++ argumentTemplates arguments
  | .functionType parameters result => parameterTemplates parameters ++ templateTypes result
  | .typeVariable _ => []
  | .errorType => []

def argumentTemplates : List TemplateArgument → List Ty
  | [] => []
  | .typeTemplateArgument nested :: remaining => templateTypes nested ++ argumentTemplates remaining
  | .valueTemplateArgument _ :: remaining => argumentTemplates remaining

def parameterTemplates : List Ty → List Ty
  | [] => []
  | parameter :: remaining => templateTypes parameter ++ parameterTemplates remaining

end

mutual

/-- Every type that is written in an expression. -/
def expressionTypes : CoreExpression → List Ty
  | .coreVariable _ valueType => [valueType]
  | .coreLiteral _ valueType => [valueType]
  | .coreApply callee arguments valueType =>
      valueType :: (expressionTypes callee ++ expressionsTypes arguments)
  | .corePrimitive _ operands valueType => valueType :: expressionsTypes operands
  | .coreLet _ bindingType value body valueType =>
      valueType :: bindingType :: (expressionTypes value ++ expressionTypes body)
  | .coreConditional condition whenTrue whenFalse valueType =>
      valueType :: (expressionTypes condition ++ expressionTypes whenTrue ++ expressionTypes whenFalse)
  | .coreClosure captures parameters returnType body valueType =>
      valueType :: returnType :: (parameters.map Prod.snd ++ capturesTypes captures ++ statementsTypes body)

def expressionsTypes : List CoreExpression → List Ty
  | [] => []
  | expression :: remaining => expressionTypes expression ++ expressionsTypes remaining

def capturesTypes : List CoreCapture → List Ty
  | [] => []
  | .coreCapture _ _ captureType value :: remaining =>
      captureType :: (expressionTypes value ++ capturesTypes remaining)

def statementTypes : CoreStatement → List Ty
  | .coreBind _ bindingType _ value => bindingType :: expressionTypes value
  | .coreAssign _ value => expressionTypes value
  | .coreReturn value => expressionTypes value
  | .coreIf condition trueBranch falseBranch =>
      expressionTypes condition ++ statementsTypes trueBranch ++ statementsTypes falseBranch
  | .coreEvaluate value => expressionTypes value
  | .coreWhile condition body => expressionTypes condition ++ statementsTypes body
  | .coreDoWhile body condition => statementsTypes body ++ expressionTypes condition
  | .coreFor condition body update =>
      expressionTypes condition ++ statementsTypes body ++ statementsTypes update
  | .coreBreak => []
  | .coreContinue => []

def statementsTypes : List CoreStatement → List Ty
  | [] => []
  | statement :: remaining => statementTypes statement ++ statementsTypes remaining

end

/-- Every type that is written in a module. -/
def moduleTypes (coreModule : CoreModule) : List Ty :=
  coreModule.coreModuleFunctions.flatMap fun function =>
    function.coreFunctionParameters.map Prod.snd
      ++ function.coreFunctionReturnType :: statementsTypes function.coreFunctionBody

/-- The outermost template types of a type. -/
def outermostTemplates (valueType : Ty) : List Ty :=
  if specializationCandidate valueType then [valueType] else (directTypeDependencies valueType).map Prod.snd

/-! ## What discovery finds -/

mutual

theorem discoverTypeAt_types : ∀ (location : DemandLocation) (valueType : Ty),
    (discoverTypeAt location valueType).map TypeOccurrence.occurrenceType = outermostTemplates valueType
  | location, .namedType name arguments => by
      unfold outermostTemplates
      rw [discoverTypeAt]
      split
      · rfl
      · next hnot =>
        cases arguments with
        | nil => rfl
        | cons argument remaining => exact absurd rfl hnot
  | location, .functionType parameters result => by
      show _ = (directTypeDependencies (.functionType parameters result)).map Prod.snd
      rw [discoverTypeAt, directTypeDependencies, List.map_append, List.map_append,
        discoverParameterTypes_types location 0 parameters, discoverTypeAt_types _ result]
      congr 1
      unfold outermostTemplates
      split <;> rfl
  | _, .typeVariable _ => rfl
  | _, .errorType => rfl

theorem discoverParameterTypes_types : ∀ (location : DemandLocation) (index : Nat) (parameters : List Ty),
    (discoverParameterTypes location index parameters).map TypeOccurrence.occurrenceType
      = (parameterDependencies index parameters).map Prod.snd
  | _, _, [] => rfl
  | location, index, parameter :: remaining => by
      rw [discoverParameterTypes, parameterDependencies, List.map_append, List.map_append,
        discoverParameterTypes_types location (index + 1) remaining, discoverTypeAt_types _ parameter]
      congr 1
      unfold outermostTemplates
      split <;> rfl

end

/-- The occurrences are the outermost template types of these types. -/
def Covers (occurrences : List TypeOccurrence) (types : List Ty) : Prop :=
  ∀ template, template ∈ occurrences.map TypeOccurrence.occurrenceType ↔
    ∃ valueType ∈ types, template ∈ outermostTemplates valueType

namespace Covers

theorem nil : Covers [] [] := by
  intro template
  simp

theorem type (location : DemandLocation) (valueType : Ty) :
    Covers (discoverTypeAt location valueType) [valueType] := by
  intro template
  rw [discoverTypeAt_types]
  simp

theorem append {occurrences occurrences' : List TypeOccurrence} {types types' : List Ty}
    (h : Covers occurrences types) (h' : Covers occurrences' types') :
    Covers (occurrences ++ occurrences') (types ++ types') := by
  intro template
  rw [List.map_append, List.mem_append, h template, h' template]
  simp only [List.mem_append, or_and_right, exists_or]

/-- The order of the types does not matter. -/
theorem congr {occurrences : List TypeOccurrence} {types types' : List Ty} (h : Covers occurrences types)
    (hsame : ∀ valueType, valueType ∈ types ↔ valueType ∈ types') : Covers occurrences types' := by
  intro template
  rw [h template]
  simp only [hsame]

theorem declared (location : DemandLocation) (step : Nat → DemandPathStep)
    (parameters : List (ResolvedName × Ty)) : ∀ index : Nat,
    Covers (discoverDeclared location step index parameters) (parameters.map Prod.snd) := by
  induction parameters with
  | nil =>
      intro index
      exact nil
  | cons parameter remaining ih =>
      intro index
      exact (type _ parameter.2).append (ih (index + 1))

end Covers

mutual

theorem discoverExpression_covers : ∀ (location : DemandLocation) (expression : CoreExpression),
    Covers (discoverExpression location expression) (expressionTypes expression)
  | _, .coreVariable _ valueType => .type _ valueType
  | _, .coreLiteral _ valueType => .type _ valueType
  | location, .coreApply callee arguments valueType =>
      (Covers.type _ valueType).append
        ((discoverExpression_covers _ callee).append (discoverExpressions_covers location _ 0 arguments))
  | location, .corePrimitive _ operands valueType =>
      (Covers.type _ valueType).append (discoverExpressions_covers location _ 0 operands)
  | _, .coreLet _ bindingType value body valueType => by
      refine Covers.congr ((Covers.type _ valueType).append (((Covers.type _ bindingType).append
        (discoverExpression_covers _ value)).append (discoverExpression_covers _ body))) ?_
      intro other
      simp [expressionTypes]
  | _, .coreConditional condition whenTrue whenFalse valueType =>
      (Covers.type _ valueType).append (((discoverExpression_covers _ condition).append
        (discoverExpression_covers _ whenTrue)).append (discoverExpression_covers _ whenFalse))
  | location, .coreClosure captures parameters returnType body valueType => by
      refine Covers.congr ((Covers.type _ valueType).append ((((discoverCaptures_covers location 0
        captures).append (Covers.declared location _ parameters 0)).append (Covers.type _ returnType)).append
        (discoverStatements_covers _ 0 body))) ?_
      intro other
      simp only [expressionTypes, List.mem_append, List.mem_cons, List.not_mem_nil, or_false]
      grind

theorem discoverExpressions_covers : ∀ (location : DemandLocation) (step : Nat → DemandPathStep)
    (index : Nat) (expressions : List CoreExpression),
    Covers (discoverExpressions location step index expressions) (expressionsTypes expressions)
  | _, _, _, [] => .nil
  | location, step, index, expression :: remaining =>
      (discoverExpression_covers _ expression).append
        (discoverExpressions_covers location step (index + 1) remaining)

theorem discoverCaptures_covers : ∀ (location : DemandLocation) (index : Nat)
    (captures : List CoreCapture), Covers (discoverCaptures location index captures) (capturesTypes captures)
  | _, _, [] => .nil
  | location, index, .coreCapture _ _ captureType value :: remaining =>
      ((Covers.type _ captureType).append (discoverExpression_covers _ value)).append
        (discoverCaptures_covers location (index + 1) remaining)

theorem discoverStatement_covers : ∀ (location : DemandLocation) (statement : CoreStatement),
    Covers (discoverStatement location statement) (statementTypes statement)
  | _, .coreBind _ bindingType _ value =>
      (Covers.type _ bindingType).append (discoverExpression_covers _ value)
  | _, .coreAssign _ value => discoverExpression_covers _ value
  | _, .coreReturn value => discoverExpression_covers _ value
  | _, .coreIf condition trueBranch falseBranch =>
      ((discoverExpression_covers _ condition).append (discoverStatements_covers _ 0 trueBranch)).append
        (discoverStatements_covers _ 0 falseBranch)
  | _, .coreEvaluate value => discoverExpression_covers _ value
  | _, .coreWhile condition body =>
      (discoverExpression_covers _ condition).append (discoverStatements_covers _ 0 body)
  | _, .coreDoWhile body condition =>
      (discoverStatements_covers _ 0 body).append (discoverExpression_covers _ condition)
  | _, .coreFor condition body update =>
      ((discoverExpression_covers _ condition).append (discoverStatements_covers _ 0 body)).append
        (discoverStatements_covers _ 0 update)
  | _, .coreBreak => .nil
  | _, .coreContinue => .nil

theorem discoverStatements_covers : ∀ (parent : DemandLocation) (index : Nat) (statements : List CoreStatement),
    Covers (discoverStatements parent index statements) (statementsTypes statements)
  | _, _, [] => .nil
  | parent, index, statement :: remaining =>
      (discoverStatement_covers _ statement).append (discoverStatements_covers parent (index + 1) remaining)

end

/-- No type that is written in a module is left out. -/
theorem discoverTypeOccurrences_covers (coreModule : CoreModule) :
    Covers (discoverTypeOccurrences coreModule) (moduleTypes coreModule) := by
  unfold discoverTypeOccurrences moduleTypes
  induction coreModule.coreModuleFunctions with
  | nil => exact .nil
  | cons function remaining ih =>
      rw [List.flatMap_cons, List.flatMap_cons]
      refine Covers.append ?_ ih
      refine Covers.congr (((Covers.declared _ _ function.coreFunctionParameters 0).append (Covers.type _
        function.coreFunctionReturnType)).append (discoverStatements_covers _ 0
          function.coreFunctionBody)) ?_
      intro other
      simp

/-! ## The template types and their dependencies -/

mutual

/-- A template type of a type is the type itself, or one of a direct dependency. -/
theorem mem_templateTypes : ∀ valueType template : Ty, template ∈ templateTypes valueType ↔
    (specializationCandidate valueType = true ∧ template = valueType) ∨
      ∃ dependency ∈ directTypeDependencies valueType, template ∈ templateTypes dependency.2
  | .namedType name arguments, template => by
      rw [templateTypes, directTypeDependencies, List.mem_append, mem_argumentTemplates 0 arguments]
      cases arguments with
      | nil => simp [specializationCandidate]
      | cons argument remaining => simp [specializationCandidate]
  | .functionType parameters result, template => by
      rw [templateTypes, directTypeDependencies, List.mem_append, mem_parameterTemplates 0 parameters]
      have hresult := mem_templateTypes result template
      have hfunction : specializationCandidate (.functionType parameters result) = false := rfl
      simp only [hfunction, List.mem_append, or_and_right, exists_or]
      split
      · simp
      · next hcandidate =>
        rw [hresult]
        simp only [hcandidate]
        simp
  | .typeVariable _, template => by simp [templateTypes, directTypeDependencies, specializationCandidate]
  | .errorType, template => by simp [templateTypes, directTypeDependencies, specializationCandidate]

theorem mem_argumentTemplates : ∀ (index : Nat) (arguments : List TemplateArgument) (template : Ty),
    template ∈ argumentTemplates arguments ↔
      ∃ dependency ∈ argumentDependencies index arguments, template ∈ templateTypes dependency.2
  | _, [], template => by simp [argumentTemplates, argumentDependencies]
  | index, .typeTemplateArgument nested :: remaining, template => by
      have hnested := mem_templateTypes nested template
      rw [argumentTemplates, argumentDependencies, List.mem_append,
        mem_argumentTemplates (index + 1) remaining]
      simp only [List.mem_append, or_and_right, exists_or]
      split
      · simp
      · next hcandidate =>
        rw [hnested]
        simp only [hcandidate]
        simp
  | index, .valueTemplateArgument _ :: remaining, template => by
      rw [argumentTemplates, argumentDependencies, mem_argumentTemplates (index + 1) remaining]

theorem mem_parameterTemplates : ∀ (index : Nat) (parameters : List Ty) (template : Ty),
    template ∈ parameterTemplates parameters ↔
      ∃ dependency ∈ parameterDependencies index parameters, template ∈ templateTypes dependency.2
  | _, [], template => by simp [parameterTemplates, parameterDependencies]
  | index, parameter :: remaining, template => by
      have hparameter := mem_templateTypes parameter template
      rw [parameterTemplates, parameterDependencies, List.mem_append,
        mem_parameterTemplates (index + 1) remaining]
      simp only [List.mem_append, or_and_right, exists_or]
      split
      · simp
      · next hcandidate =>
        rw [hparameter]
        simp only [hcandidate]
        simp

end

mutual

def typeNodes : Ty → Nat
  | .namedType _ arguments => 1 + argumentNodes arguments
  | .functionType parameters result => 1 + parameterNodes parameters + typeNodes result
  | .typeVariable _ => 1
  | .errorType => 1

def argumentNodes : List TemplateArgument → Nat
  | [] => 0
  | .typeTemplateArgument nested :: remaining => typeNodes nested + argumentNodes remaining
  | .valueTemplateArgument _ :: remaining => argumentNodes remaining

def parameterNodes : List Ty → Nat
  | [] => 0
  | parameter :: remaining => typeNodes parameter + parameterNodes remaining

end

/-- The nodes of all these types. -/
def dependencyNodes (dependencies : List (Nat × Ty)) : Nat :=
  (dependencies.map fun dependency => typeNodes dependency.2).sum

theorem dependencyNodes_append (left right : List (Nat × Ty)) :
    dependencyNodes (left ++ right) = dependencyNodes left + dependencyNodes right := by
  unfold dependencyNodes
  rw [List.map_append, List.sum_append]

mutual

/-- The direct dependencies are parts of the type that do not overlap. -/
theorem dependencyNodes_lt : ∀ valueType : Ty,
    dependencyNodes (directTypeDependencies valueType) < typeNodes valueType
  | .namedType _ arguments => by
      rw [directTypeDependencies, typeNodes]
      have := argumentNodes_le 0 arguments
      omega
  | .functionType parameters result => by
      rw [directTypeDependencies, typeNodes, dependencyNodes_append]
      have hparameters := parameterNodes_le 0 parameters
      have hresult := dependencyNodes_lt result
      split
      · have hone : dependencyNodes [(parameters.length, result)] = typeNodes result := by
          simp [dependencyNodes]
        omega
      · omega
  | .typeVariable _ => Nat.one_pos
  | .errorType => Nat.one_pos

theorem argumentNodes_le : ∀ (index : Nat) (arguments : List TemplateArgument),
    dependencyNodes (argumentDependencies index arguments) ≤ argumentNodes arguments
  | _, [] => Nat.le_refl 0
  | index, .typeTemplateArgument nested :: remaining => by
      rw [argumentDependencies, argumentNodes, dependencyNodes_append]
      have hremaining := argumentNodes_le (index + 1) remaining
      have hnested := dependencyNodes_lt nested
      split
      · have hone : dependencyNodes [(index, nested)] = typeNodes nested := by simp [dependencyNodes]
        omega
      · omega
  | index, .valueTemplateArgument _ :: remaining => argumentNodes_le (index + 1) remaining

theorem parameterNodes_le : ∀ (index : Nat) (parameters : List Ty),
    dependencyNodes (parameterDependencies index parameters) ≤ parameterNodes parameters
  | _, [] => Nat.le_refl 0
  | index, parameter :: remaining => by
      rw [parameterDependencies, parameterNodes, dependencyNodes_append]
      have hremaining := parameterNodes_le (index + 1) remaining
      have hparameter := dependencyNodes_lt parameter
      split
      · have hone : dependencyNodes [(index, parameter)] = typeNodes parameter := by simp [dependencyNodes]
        omega
      · omega

end

theorem typeNodes_le_sum {dependencies : List (Nat × Ty)} {dependency : Nat × Ty}
    (h : dependency ∈ dependencies) : typeNodes dependency.2 ≤ dependencyNodes dependencies := by
  obtain ⟨front, back, rfl⟩ := List.append_of_mem h
  unfold dependencyNodes
  rw [List.map_append, List.map_cons, List.sum_append, List.sum_cons]
  omega

theorem typeNodes_dependency {valueType : Ty} {dependency : Nat × Ty}
    (h : dependency ∈ directTypeDependencies valueType) : typeNodes dependency.2 < typeNodes valueType :=
  lt_of_le_of_lt (typeNodes_le_sum h) (dependencyNodes_lt valueType)

end Tala.Core.Monomorphization
