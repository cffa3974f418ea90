import Tala.Library.SortedMap
import Tala.Core.IR
import Tala.Core.Template
import Mathlib.Data.List.Dedup

/-!
# `Core.Verifier` — the trust boundary of Core

`verifyCore` accepts a module exactly when it finds no problem in it. Every check returns its list of
reports, so acceptance of a construct is `… = []`; the `*_eq_nil` equations of the last section turn
that into the conjunction of what was checked, one equation per construct, and are what later proofs
use instead of unfolding the verifier.
-/

namespace Tala.Core

open Tala Tala.Library

/-- What the verifier knows of a symbol in scope: its type, and whether it may be assigned. -/
abbrev Environment := SortedMap Int (Ty × Bool)

/-! ## Reports -/

def problem (code message : String) : Diagnostic := ⟨.coreStage, code, message⟩

/-- One report for every value that occurs more than once. -/
def duplicates {α : Type} [DecidableEq α] (code message : String) (values : List α) :
    List Diagnostic :=
  (values.dedup.filter (fun value => 1 < values.count value)).map (fun _ => problem code message)

def typeMismatch (code message : String) (expected actual : Ty) : List Diagnostic :=
  reportWhen (expected ≠ actual) (problem code message)

/-- `concat (zipWith (typeMismatch code message) expected actual)`. -/
def typeMismatches (code message : String) (expected actual : List Ty) : List Diagnostic :=
  (List.zipWith (typeMismatch code message) expected actual).flatten

mutual

def containsError : Ty → Bool
  | .errorType => true
  | .namedType _ arguments => templateArgumentsContainError arguments
  | .functionType parameters result => anyContainsError parameters || containsError result
  | .typeVariable _ => false

def anyContainsError : List Ty → Bool
  | [] => false
  | parameter :: remaining => containsError parameter || anyContainsError remaining

def templateArgumentsContainError : List TemplateArgument → Bool
  | [] => false
  | .typeTemplateArgument nested :: remaining =>
      containsError nested || templateArgumentsContainError remaining
  | .valueTemplateArgument _ :: remaining => templateArgumentsContainError remaining

end

def renderTemplatePath : List Nat → String
  | [] => "the type root"
  | indexes =>
      "argument " ++ indexes.foldr (fun index text => "[" ++ toString index ++ "]" ++ text) ""

def templateProblem (issue : TemplateIssue) : Diagnostic :=
  problem "TAC1040" ("invalid Core template type at " ++ renderTemplatePath issue.templateIssuePath
    ++ ": " ++ issue.templateIssueMessage)

def unresolvedType (code message : String) (valueType : Ty) : List Diagnostic :=
  reportWhen (containsError valueType) (problem code message)
    ++ (validateTemplateType 128 valueType).map templateProblem

def invalidSymbol (code message : String) (name : ResolvedName) : List Diagnostic :=
  reportWhen (name.resolvedSymbol ≤ 0) (problem code message)

def emptyName (parts : QualifiedName) : List Diagnostic :=
  reportWhen (parts.isEmpty || parts.any (fun part => part.isEmpty))
    (problem "TAC1001" "Core module name must contain at least one non-empty part")

/-! ## Literals, calls and primitives -/

/-- A type whose values are references: callables, and names that are neither numbers nor unit. -/
def isReferenceLike : Ty → Bool
  | .functionType _ _ => true
  | .namedType name arguments =>
      !isCoreNumericType (.namedType name arguments) && .namedType name arguments ≠ unitType
  | _ => false

/-- The payload of a literal fits its type. -/
def literalMatches (literal : CoreLiteral) (valueType : Ty) : Bool :=
  match literal with
  | .coreInteger value => integerFitsCoreType valueType value
  | .coreFloating spelling => isCoreFloatingType valueType && validCoreFloatingSpelling spelling
  | .coreString _ => valueType = stringType
  | .coreBoolean _ => valueType = boolType
  | .coreUnit => valueType = unitType
  | .coreNull => isReferenceLike valueType

def literalProblems (literal : CoreLiteral) (valueType : Ty) : List Diagnostic :=
  reportWhen (!literalMatches literal valueType)
    (problem "TAC1029" "Core literal payload does not match its type or scalar range")

/-- The type may be tested: Boolean or numeric. -/
def isConditionType (valueType : Ty) : Bool := valueType = boolType || isCoreNumericType valueType

def callProblems (callee : CoreExpression) (arguments : List CoreExpression) (resultType : Ty) :
    List Diagnostic :=
  match expressionType callee with
  | .functionType parameterTypes declaredResult =>
      reportWhen (parameterTypes.length ≠ arguments.length)
          (problem "TAC1022" "Core call has the wrong argument count")
        ++ typeMismatches "TAC1023" "Core call argument has the wrong type" parameterTypes
          (arguments.map expressionType)
        ++ typeMismatch "TAC1024" "Core call result type disagrees with the callee" declaredResult
          resultType
  | _ => [problem "TAC1025" "Core call target is not a function"]

namespace CorePrimitive

def isUnary (primitive : CorePrimitive) : Bool :=
  [coreNegate, coreLogicalNot, coreBitwiseNot, coreMemoize].contains primitive

def isLogical (primitive : CorePrimitive) : Bool :=
  [coreLogicalAnd, coreLogicalOr, coreLogicalNot].contains primitive

def isIntegerOnly (primitive : CorePrimitive) : Bool :=
  [coreShiftLeft, coreShiftRight, coreBitwiseAnd, coreBitwiseXor, coreBitwiseOr,
    coreBitwiseNot].contains primitive

def isComparison (primitive : CorePrimitive) : Bool :=
  [coreLessThan, coreLessEqual, coreGreaterThan, coreGreaterEqual, coreEqual,
    coreNotEqual].contains primitive

def arity (primitive : CorePrimitive) : Nat := if primitive.isUnary then 1 else 2

end CorePrimitive

/-- The runtime function the first operand names: an `int` literal with an identity of the catalog. -/
def runtimeFunctionNamed : List CoreExpression → Option RuntimeFunction
  | .coreLiteral (.coreInteger identity) valueType :: _ =>
      if valueType = intType then runtimeFunctionOf identity else none
  | _ => none

def memoizeProblem : Diagnostic :=
  problem "TAC1073"
    "Core memoization requires a callable without parameters whose result is bool or numeric"

/-- Type of the first operand, `errorType` without operands. -/
def firstType (argumentTypes : List Ty) : Ty := argumentTypes.headD .errorType

/-- The guards on operand types, in the order the source tries them. -/
def operandProblems (primitive : CorePrimitive) (argumentTypes : List Ty) : List Diagnostic :=
  let operandsAgree := argumentTypes.all (· = firstType argumentTypes)
  if primitive = .coreTypeIs then
    match argumentTypes with
    | [subjectType, identityType] =>
        if isReferenceLike subjectType && identityType = namedType "uint" then []
        else [problem "TAC1044" "Core type test requires a reference subject and uint identity"]
    | _ => []
  else if primitive = .coreMemoize then
    match argumentTypes with
    | [.functionType [] result] => if isConditionType result then [] else [memoizeProblem]
    | [_] => [memoizeProblem]
    | _ => []
  else if primitive.isLogical && !argumentTypes.all isConditionType then
    [problem "TAC1027" "Core logical primitive requires bool or numeric operands"]
  else if primitive.isIntegerOnly && !argumentTypes.all isCoreIntegerType then
    [problem "TAC1027" "Core bitwise primitive requires integer operands"]
  else if [CorePrimitive.coreEqual, .coreNotEqual].contains primitive && operandsAgree
      && (firstType argumentTypes = boolType || isReferenceLike (firstType argumentTypes)) then
    []
  else if !primitive.isLogical && !argumentTypes.all isCoreNumericType then
    [problem "TAC1027" "Core numeric primitive requires numeric operands"]
  else if !primitive.isLogical && !operandsAgree then
    [problem "TAC1027" "Core numeric primitive operands must have the same type"]
  else []

/-- The result type a primitive has on operands of the given types. -/
def expectedResult (primitive : CorePrimitive) (argumentTypes : List Ty) : Ty :=
  if primitive.isLogical || primitive.isComparison || primitive = .coreTypeIs then boolType
  else if primitive = .coreFloorDivide && isCoreFloatingType (firstType argumentTypes) then intType
  else firstType argumentTypes

def primitiveProblems (primitive : CorePrimitive) (arguments : List CoreExpression)
    (resultType : Ty) : List Diagnostic :=
  if primitive = .coreRuntimeCall then
    match runtimeCallDefect (runtimeFunctionNamed arguments)
        ((arguments.drop 1).map expressionType) resultType with
    | some defect => [problem "TAC1075" ("Core " ++ runtimeDefectText defect)]
    | none => []
  else
    reportWhen (arguments.length ≠ primitive.arity)
        (problem "TAC1026" "Core primitive has the wrong operand count")
      ++ operandProblems primitive (arguments.map expressionType)
      ++ typeMismatch "TAC1028" "Core primitive result has the wrong type"
        (expectedResult primitive (arguments.map expressionType)) resultType

/-! ## Statements that never fall through -/

mutual

/-- The statement leaves the loop it stands in by a `break`; a `break` in a nested loop does not. -/
def breaks : CoreStatement → Bool
  | .coreBreak => true
  | .coreIf _ whenTrue whenFalse => leftByBreak whenTrue || leftByBreak whenFalse
  | _ => false

def leftByBreak : List CoreStatement → Bool
  | [] => false
  | statement :: remaining => breaks statement || leftByBreak remaining

end

def isLiteralTrue : CoreExpression → Bool
  | .coreLiteral (.coreBoolean true) _ => true
  | _ => false

/-- The literal true heads the loop and no `break` leaves it. -/
def cannotBeLeft (condition : CoreExpression) (body : List CoreStatement) : Bool :=
  isLiteralTrue condition && !leftByBreak body

mutual

/-- Whether control never passes the statement. -/
def statementAlwaysReturns : CoreStatement → Bool
  | .coreReturn _ => true
  | .coreIf _ whenTrue whenFalse =>
      !whenFalse.isEmpty && statementsAlwaysReturn whenTrue && statementsAlwaysReturn whenFalse
  | .coreWhile condition body => cannotBeLeft condition body
  | .coreDoWhile body condition => cannotBeLeft condition body
  | .coreFor condition body update => cannotBeLeft condition (body ++ update)
  | _ => false

/-- Whether control can never fall off the end of the statements. -/
def statementsAlwaysReturn : List CoreStatement → Bool
  | [] => false
  | statement :: remaining => statementAlwaysReturns statement || statementsAlwaysReturn remaining

end

/-! ## Expressions and statements -/

/-- Where a `break` or `continue` would transfer to. -/
inductive TransferScope
  | outsideLoop | inLoopBody | inForUpdate
  deriving DecidableEq, Repr

def verifyParameter (parameter : ResolvedName × Ty) : List Diagnostic :=
  invalidSymbol "TAC1006" "Core parameter symbol must be positive" parameter.1
    ++ unresolvedType "TAC1007" "Core parameter has an unresolved type" parameter.2

/-- Scope entries of immutable parameters. -/
def parameterEnvironment (parameters : List (ResolvedName × Ty)) : Environment :=
  SortedMap.ofList (parameters.map fun p => (p.1.resolvedSymbol, p.2, false))

/-- Scope entries of captures, which a closure body may assign. -/
def captureEnvironment (captures : List CoreCapture) : Environment :=
  SortedMap.ofList (captures.map fun c =>
    (c.coreCaptureName.resolvedSymbol, c.coreCaptureType, true))

/-- The scope of a closure body: parameters, then captures, then what surrounds the closure. -/
def closureEnvironment (environment : Environment) (captures : List CoreCapture)
    (parameters : List (ResolvedName × Ty)) : Environment :=
  (parameterEnvironment parameters).union ((captureEnvironment captures).union environment)

/-- Agreement of a closure with its callable type. -/
def callableTypeProblems (parameters : List (ResolvedName × Ty)) (returnType valueType : Ty) :
    List Diagnostic :=
  match valueType with
  | .functionType parameterTypes result =>
      typeMismatches "TAC1033" "closure parameter type disagrees with callable type" parameterTypes
          (parameters.map Prod.snd)
        ++ reportWhen (parameterTypes.length ≠ parameters.length)
          (problem "TAC1034" "closure callable type has the wrong arity")
        ++ typeMismatch "TAC1035" "closure return type disagrees with callable type" result returnType
  | _ => [problem "TAC1036" "Core closure expression must have a callable type"]

/-- The scope after a statement: only a binding extends it. -/
def statementEnvironment (environment : Environment) : CoreStatement → Environment
  | .coreBind name type «mutable» _ => environment.insert name.resolvedSymbol (type, «mutable»)
  | _ => environment

/-- The scope after a list of statements. -/
def statementsEnvironment (environment : Environment) (statements : List CoreStatement) :
    Environment :=
  statements.foldl statementEnvironment environment

mutual

def verifyExpression (environment : Environment) : CoreExpression → List Diagnostic
  | .coreVariable name valueType =>
      unresolvedType "TAC1018" "Core expression has an unresolved type" valueType
        ++ (invalidSymbol "TAC1019" "Core variable symbol must be positive" name
        ++ match environment.find name.resolvedSymbol with
          | none => [problem "TAC1020" "Core expression references an undefined symbol"]
          | some (declaredType, _) =>
              typeMismatch "TAC1021" "Core variable type disagrees with its definition" declaredType
                valueType)
  | .coreLiteral literal valueType =>
      unresolvedType "TAC1018" "Core expression has an unresolved type" valueType
        ++ literalProblems literal valueType
  | .coreApply callee arguments valueType =>
      unresolvedType "TAC1018" "Core expression has an unresolved type" valueType
        ++ (verifyExpression environment callee ++ verifyExpressions environment arguments
        ++ callProblems callee arguments valueType)
  | .corePrimitive primitive arguments valueType =>
      unresolvedType "TAC1018" "Core expression has an unresolved type" valueType
        ++ (verifyExpressions environment arguments
        ++ primitiveProblems primitive arguments valueType)
  | .coreLet name bindingType value body valueType =>
      unresolvedType "TAC1018" "Core expression has an unresolved type" valueType
        ++ (invalidSymbol "TAC1040" "Core let symbol must be positive" name
        ++ unresolvedType "TAC1041" "Core let binding has an unresolved type" bindingType
        ++ verifyExpression environment value
        ++ typeMismatch "TAC1042" "Core let value has the wrong type" bindingType
          (expressionType value)
        ++ verifyExpression (environment.insert name.resolvedSymbol (bindingType, false)) body
        ++ typeMismatch "TAC1043" "Core let result type disagrees with its body" valueType
          (expressionType body))
  | .coreConditional condition whenTrue whenFalse valueType =>
      unresolvedType "TAC1018" "Core expression has an unresolved type" valueType
        ++ (verifyExpression environment condition
        ++ reportWhen (!isConditionType (expressionType condition))
          (problem "TAC1067" "Core conditional test must be bool or numeric")
        ++ verifyExpression environment whenTrue
        ++ verifyExpression environment whenFalse
        ++ typeMismatch "TAC1068" "Core conditional result type disagrees with its first arm"
          valueType (expressionType whenTrue)
        ++ typeMismatch "TAC1069" "Core conditional result type disagrees with its second arm"
          valueType (expressionType whenFalse)
        ++ reportWhen (!isConditionType valueType)
          (problem "TAC1070" "Core conditional result must be bool or numeric"))
  | .coreClosure captures parameters returnType body valueType =>
      unresolvedType "TAC1018" "Core expression has an unresolved type" valueType
        ++ (duplicates "TAC1030" "duplicate Core closure capture symbol"
          (captures.map fun c => c.coreCaptureName.resolvedSymbol)
        ++ duplicates "TAC1031" "duplicate Core closure parameter symbol"
          (parameters.map fun p => p.1.resolvedSymbol)
        ++ verifyCaptures environment captures
        ++ parameters.flatMap verifyParameter
        ++ callableTypeProblems parameters returnType valueType
        ++ verifyStatements (closureEnvironment environment captures parameters) returnType
          .outsideLoop body
        ++ reportWhen (returnType ≠ unitType && !statementsAlwaysReturn body)
          (problem "TAC1032" "non-void Core closure may complete without returning"))

def verifyExpressions (environment : Environment) : List CoreExpression → List Diagnostic
  | [] => []
  | expression :: remaining =>
      verifyExpression environment expression ++ verifyExpressions environment remaining

def verifyCaptures (environment : Environment) : List CoreCapture → List Diagnostic
  | [] => []
  | .coreCapture _ name type value :: remaining =>
      invalidSymbol "TAC1037" "Core capture symbol must be positive" name
        ++ unresolvedType "TAC1038" "Core capture has an unresolved type" type
        ++ verifyExpression environment value
        ++ typeMismatch "TAC1039" "Core capture value has the wrong type" type (expressionType value)
        ++ verifyCaptures environment remaining

/-- The reports of a statement; the scope after it is `statementEnvironment`. -/
def verifyStatement (environment : Environment) (returnType : Ty) (scope : TransferScope) :
    CoreStatement → List Diagnostic
  | .coreBind name type _ value =>
      invalidSymbol "TAC1008" "Core binding symbol must be positive" name
        ++ unresolvedType "TAC1009" "Core binding has an unresolved type" type
        ++ reportWhen (environment.find name.resolvedSymbol).isSome
          (problem "TAC1010" "Core binding symbol is already defined")
        ++ typeMismatch "TAC1011" "Core binding value type does not match its declaration" type
          (expressionType value)
        ++ verifyExpression environment value
  | .coreAssign name value =>
      invalidSymbol "TAC1015" "Core assignment symbol must be positive" name
        ++ verifyExpression environment value
        ++ match environment.find name.resolvedSymbol with
          | none => [problem "TAC1012" "Core assignment targets an undefined symbol"]
          | some (_, false) => [problem "TAC1013" "Core assignment targets an immutable symbol"]
          | some (targetType, true) =>
              typeMismatch "TAC1014" "Core assignment value has the wrong type" targetType
                (expressionType value)
  | .coreReturn value =>
      verifyExpression environment value
        ++ typeMismatch "TAC1016" "Core return value has the wrong type" returnType
          (expressionType value)
  | .coreIf condition whenTrue whenFalse =>
      verifyExpression environment condition
        ++ reportWhen (!isConditionType (expressionType condition))
          (problem "TAC1017" "Core condition must be bool or numeric")
        ++ verifyStatements environment returnType scope whenTrue
        ++ verifyStatements environment returnType scope whenFalse
  | .coreEvaluate value => verifyExpression environment value
  | .coreWhile condition body =>
      verifyExpression environment condition
        ++ reportWhen (!isConditionType (expressionType condition))
          (problem "TAC1047" "Core while condition must be bool or numeric")
        ++ verifyStatements environment returnType .inLoopBody body
  | .coreDoWhile body condition =>
      verifyStatements environment returnType .inLoopBody body
        ++ verifyExpression environment condition
        ++ reportWhen (!isConditionType (expressionType condition))
          (problem "TAC1047" "Core do/while condition must be bool or numeric")
  | .coreFor condition body update =>
      verifyExpression environment condition
        ++ reportWhen (!isConditionType (expressionType condition))
          (problem "TAC1047" "Core for condition must be bool or numeric")
        ++ verifyStatements environment returnType .inLoopBody body
        ++ verifyStatements environment returnType .inForUpdate update
  | .coreBreak =>
      reportWhen (scope = .outsideLoop) (problem "TAC1045" "Core break is not nested in a loop")
  | .coreContinue =>
      reportWhen (scope = .outsideLoop) (problem "TAC1046" "Core continue is not nested in a loop")
        ++ reportWhen (scope = .inForUpdate)
          (problem "TAC1066" "Core continue appears in a for update region")

def verifyStatements (environment : Environment) (returnType : Ty) (scope : TransferScope) :
    List CoreStatement → List Diagnostic
  | [] => []
  | statement :: remaining =>
      verifyStatement environment returnType scope statement
        ++ verifyStatements (statementEnvironment environment statement) returnType scope remaining

end

/-! ## Functions and modules -/

/-- Every function symbol with its callable type. -/
def functionEnvironment (functions : List CoreFunction) : Environment :=
  SortedMap.ofList (functions.map fun function => (function.symbol, function.type, false))

/-- The scope a function body starts in: its parameters over the functions. -/
def initialEnvironment (functionScope : Environment) (function : CoreFunction) : Environment :=
  (parameterEnvironment function.coreFunctionParameters).union functionScope

def verifyFunction (functionScope : Environment) (function : CoreFunction) : List Diagnostic :=
  invalidSymbol "TAC1006" "Core function symbol must be positive" function.coreFunctionName
    ++ unresolvedType "TAC1003" "Core function has an unresolved return type"
      function.coreFunctionReturnType
    ++ duplicates "TAC1004" "duplicate Core parameter symbol"
      (function.coreFunctionParameters.map fun p => p.1.resolvedSymbol)
    ++ function.coreFunctionParameters.flatMap verifyParameter
    ++ verifyStatements (initialEnvironment functionScope function) function.coreFunctionReturnType
      .outsideLoop function.coreFunctionBody
    ++ reportWhen (function.coreFunctionReturnType ≠ unitType
        && !statementsAlwaysReturn function.coreFunctionBody)
      (problem "TAC1005" "non-void Core function may complete without returning a value")

/-- Checks on the source files of a module and on the owners of its functions. -/
def sourceCatalogProblems (moduleValue : CoreModule) : List Diagnostic :=
  let sourceFiles := moduleValue.coreModuleSourceFiles
  let sourceOwners := moduleValue.coreModuleFunctionSources
  duplicates "TAC1030" "duplicate Core source file" sourceFiles
    ++ reportWhen (sourceFiles.any fun path => path.isEmpty || path.toList.contains '\x00')
      (problem "TAC1031" "Core source file path is empty or contains NUL")
    ++ duplicates "TAC1032" "duplicate Core function source owner" (sourceOwners.map Prod.fst)
    ++ (sourceOwners.filter fun owner => !sourceFiles.contains owner.2).map (fun _ =>
      problem "TAC1033" "Core function source owner is absent from the module source catalog")
    ++ if sourceFiles.isEmpty then [] else
      (moduleValue.coreModuleFunctions.filter fun function =>
        !(sourceOwners.map Prod.fst).contains function.symbol).map (fun _ =>
      problem "TAC1034" "Core function has no source owner")

def moduleProblems (moduleValue : CoreModule) : List Diagnostic :=
  emptyName moduleValue.coreModuleName
    ++ duplicates "TAC1002" "duplicate Core function symbol"
      (moduleValue.coreModuleFunctions.map CoreFunction.symbol)
    ++ sourceCatalogProblems moduleValue
    ++ moduleValue.coreModuleFunctions.flatMap
      (verifyFunction (functionEnvironment moduleValue.coreModuleFunctions))

/-- Validate module, function, type, symbol, return and source-ownership rules. -/
def verifyCore (moduleValue : CoreModule) : Except (List Diagnostic) CoreModule :=
  match moduleProblems moduleValue with
  | [] => .ok moduleValue
  | problems => .error problems

/-! ## What acceptance says, construct by construct -/

variable {message : String} {arguments : List CoreExpression} {code : String} {valueType resultType : Ty}

theorem typeMismatch_eq_nil {expected actual : Ty} :
    typeMismatch code message expected actual = [] ↔ expected = actual := by
  simp [typeMismatch]

theorem invalidSymbol_eq_nil {name : ResolvedName} :
    invalidSymbol code message name = [] ↔ 0 < name.resolvedSymbol := by
  simp [invalidSymbol]

theorem duplicates_eq_nil {α : Type} [DecidableEq α] {values : List α} :
    duplicates code message values = [] ↔ values.Nodup := by
  simp only [duplicates, List.map_eq_nil_iff, List.filter_eq_nil_iff, List.mem_dedup,
    decide_eq_true_eq]
  constructor
  · refine fun h => List.nodup_iff_count_le_one.mpr fun value => ?_
    by_cases hv : value ∈ values
    · exact Nat.not_lt.mp (h value hv)
    · rw [List.count_eq_zero_of_not_mem hv]; exact Nat.zero_le 1
  · exact fun h value _ => Nat.not_lt.mpr (List.nodup_iff_count_le_one.mp h value)

/-- A type without an error inside that passes template validation. -/
def ResolvedType (valueType : Ty) : Prop :=
  containsError valueType = false ∧ validateTemplateType 128 valueType = []

theorem unresolvedType_eq_nil : unresolvedType code message valueType = [] ↔ ResolvedType valueType := by
  simp [unresolvedType, ResolvedType]

theorem typeMismatches_eq_nil {expected actual : List Ty} (hlen : expected.length = actual.length) :
    typeMismatches code message expected actual = [] ↔ expected = actual := by
  induction expected generalizing actual with
  | nil => cases actual <;> simp_all [typeMismatches]
  | cons e es ih =>
      cases actual with
      | nil => simp at hlen
      | cons a as =>
          have ih' := @ih as (by simpa using hlen)
          simp only [typeMismatches] at ih'
          simp [typeMismatches, List.zipWith_cons_cons, typeMismatch_eq_nil, ih']

theorem literalProblems_eq_nil {literal : CoreLiteral} :
    literalProblems literal valueType = [] ↔ literalMatches literal valueType = true := by
  simp [literalProblems]

theorem primitiveProblems_eq_nil {primitive : CorePrimitive} (h : primitive ≠ .coreRuntimeCall) :
    primitiveProblems primitive arguments resultType = [] ↔
      arguments.length = primitive.arity ∧
        operandProblems primitive (arguments.map expressionType) = [] ∧
        expectedResult primitive (arguments.map expressionType) = resultType := by
  rw [primitiveProblems, if_neg h, List.append_eq_nil_iff, List.append_eq_nil_iff,
    typeMismatch_eq_nil, and_assoc]
  simp

theorem runtimeCallProblems_eq_nil :
    primitiveProblems .coreRuntimeCall arguments resultType = [] ↔
      runtimeCallDefect (runtimeFunctionNamed arguments) ((arguments.drop 1).map expressionType)
        resultType = none := by
  rw [primitiveProblems, if_pos rfl]
  split
  · next defect h => rw [h]; simp
  · next h => rw [h]; simp

/-- **An accepted call** applies a callable to exactly its parameter types. -/
theorem callProblems_eq_nil {callee : CoreExpression} :
    callProblems callee arguments resultType = [] ↔
      expressionType callee = .functionType (arguments.map expressionType) resultType := by
  unfold callProblems
  split
  · next parameterTypes declaredResult heq =>
      simp only [List.append_eq_nil_iff, reportWhen_eq_nil, decide_eq_false_iff_not, not_not,
        typeMismatch_eq_nil, heq, Ty.functionType.injEq]
      constructor
      · rintro ⟨⟨hlen, hargs⟩, hresult⟩
        exact ⟨(typeMismatches_eq_nil (by simpa using hlen)).mp hargs, hresult⟩
      · rintro ⟨rfl, rfl⟩
        exact ⟨⟨by simp, (typeMismatches_eq_nil rfl).mpr rfl⟩, rfl⟩
  · next hne =>
      refine ⟨fun h => by simp at h, fun h => absurd h (hne _ _)⟩

/-- An accepted closure has the callable type of its parameters and result. -/
theorem callableTypeProblems_eq_nil {parameters : List (ResolvedName × Ty)} {returnType : Ty} :
    callableTypeProblems parameters returnType valueType = [] ↔
      valueType = .functionType (parameters.map Prod.snd) returnType := by
  unfold callableTypeProblems
  split
  · next parameterTypes result =>
      simp only [List.append_eq_nil_iff, reportWhen_eq_nil, decide_eq_false_iff_not, not_not,
        typeMismatch_eq_nil, Ty.functionType.injEq]
      constructor
      · rintro ⟨⟨hargs, hlen⟩, hresult⟩
        exact ⟨(typeMismatches_eq_nil (by simpa using hlen)).mp hargs, hresult⟩
      · rintro ⟨rfl, rfl⟩
        exact ⟨⟨(typeMismatches_eq_nil rfl).mpr rfl, by simp⟩, rfl⟩
  · next hne => exact ⟨fun h => by simp at h, fun h => absurd h (hne _ _)⟩

section Expressions

attribute [local simp] verifyExpression verifyExpressions verifyCaptures

variable {environment : Environment} {name : ResolvedName} {valueType bindingType returnType : Ty}
  {literal : CoreLiteral} {primitive : CorePrimitive}
  {callee value body condition whenTrue whenFalse : CoreExpression}
  {arguments : List CoreExpression} {captures : List CoreCapture}
  {parameters : List (ResolvedName × Ty)} {statements : List CoreStatement}

theorem verifyExpression_coreVariable :
    verifyExpression environment (.coreVariable name valueType) = [] ↔
      ResolvedType valueType ∧ 0 < name.resolvedSymbol ∧
        ∃ m, environment.find name.resolvedSymbol = some (valueType, m) := by
  rw [verifyExpression, List.append_eq_nil_iff, List.append_eq_nil_iff, unresolvedType_eq_nil,
    invalidSymbol_eq_nil]
  cases environment.find name.resolvedSymbol with
  | none => simp
  | some entry => obtain ⟨t, m⟩ := entry; simp [typeMismatch_eq_nil]

theorem verifyExpression_coreLiteral :
    verifyExpression environment (.coreLiteral literal valueType) = [] ↔
      ResolvedType valueType ∧ literalMatches literal valueType = true := by
  rw [verifyExpression, List.append_eq_nil_iff, unresolvedType_eq_nil, literalProblems_eq_nil]

theorem verifyExpression_coreApply :
    verifyExpression environment (.coreApply callee arguments valueType) = [] ↔
      ResolvedType valueType ∧ verifyExpression environment callee = [] ∧
        verifyExpressions environment arguments = [] ∧
        expressionType callee = .functionType (arguments.map expressionType) valueType := by
  rw [verifyExpression, List.append_eq_nil_iff, unresolvedType_eq_nil]
  simp only [List.append_eq_nil_iff, callProblems_eq_nil, and_assoc]

theorem verifyExpression_corePrimitive :
    verifyExpression environment (.corePrimitive primitive arguments valueType) = [] ↔
      ResolvedType valueType ∧ verifyExpressions environment arguments = [] ∧
        primitiveProblems primitive arguments valueType = [] := by
  rw [verifyExpression, List.append_eq_nil_iff, unresolvedType_eq_nil, List.append_eq_nil_iff]

theorem verifyExpression_coreLet :
    verifyExpression environment (.coreLet name bindingType value body valueType) = [] ↔
      ResolvedType valueType ∧ 0 < name.resolvedSymbol ∧ ResolvedType bindingType ∧
        verifyExpression environment value = [] ∧ bindingType = expressionType value ∧
        verifyExpression (environment.insert name.resolvedSymbol (bindingType, false)) body = [] ∧
        valueType = expressionType body := by
  rw [verifyExpression, List.append_eq_nil_iff, unresolvedType_eq_nil]
  simp only [List.append_eq_nil_iff, invalidSymbol_eq_nil, unresolvedType_eq_nil,
    typeMismatch_eq_nil, and_assoc]

theorem verifyExpression_coreConditional :
    verifyExpression environment (.coreConditional condition whenTrue whenFalse valueType) = [] ↔
      ResolvedType valueType ∧ verifyExpression environment condition = [] ∧
        isConditionType (expressionType condition) = true ∧
        verifyExpression environment whenTrue = [] ∧ verifyExpression environment whenFalse = [] ∧
        valueType = expressionType whenTrue ∧ valueType = expressionType whenFalse ∧
        isConditionType valueType = true := by
  rw [verifyExpression, List.append_eq_nil_iff, unresolvedType_eq_nil]
  simp only [List.append_eq_nil_iff, reportWhen_eq_nil, Bool.not_eq_false', typeMismatch_eq_nil,
    and_assoc]

theorem verifyExpression_coreClosure :
    verifyExpression environment (.coreClosure captures parameters returnType statements valueType) = []
      ↔ ResolvedType valueType ∧
        (captures.map fun c => c.coreCaptureName.resolvedSymbol).Nodup ∧
        (parameters.map fun p => p.1.resolvedSymbol).Nodup ∧
        verifyCaptures environment captures = [] ∧
        parameters.flatMap verifyParameter = [] ∧
        valueType = .functionType (parameters.map Prod.snd) returnType ∧
        verifyStatements (closureEnvironment environment captures parameters) returnType
          .outsideLoop statements = [] ∧
        (returnType = unitType ∨ statementsAlwaysReturn statements = true) := by
  rw [verifyExpression, List.append_eq_nil_iff, unresolvedType_eq_nil]
  simp only [List.append_eq_nil_iff, duplicates_eq_nil, callableTypeProblems_eq_nil,
    reportWhen_eq_nil, Bool.and_eq_false_imp, decide_eq_true_eq, Bool.not_eq_false', and_assoc,
    ne_eq, ← or_iff_not_imp_left]

theorem verifyExpressions_nil : verifyExpressions environment [] = [] := by rw [verifyExpressions]

theorem verifyExpressions_cons :
    verifyExpressions environment (value :: arguments) = [] ↔
      verifyExpression environment value = [] ∧ verifyExpressions environment arguments = [] := by
  rw [verifyExpressions, List.append_eq_nil_iff]

theorem verifyExpressions_forall :
    verifyExpressions environment arguments = [] ↔
      ∀ argument ∈ arguments, verifyExpression environment argument = [] := by
  induction arguments with
  | nil => simp [verifyExpressions]
  | cons a as ih => rw [verifyExpressions_cons, ih, List.forall_mem_cons]

theorem verifyCaptures_cons {mode : CaptureMode} :
    verifyCaptures environment (.coreCapture mode name valueType value :: captures) = [] ↔
      0 < name.resolvedSymbol ∧ ResolvedType valueType ∧ verifyExpression environment value = [] ∧
        valueType = expressionType value ∧ verifyCaptures environment captures = [] := by
  rw [verifyCaptures]
  simp only [List.append_eq_nil_iff, invalidSymbol_eq_nil, unresolvedType_eq_nil,
    typeMismatch_eq_nil, and_assoc]

end Expressions

section Statements

attribute [local simp] verifyStatement verifyStatements

variable {environment : Environment} {returnType valueType : Ty} {scope : TransferScope}
  {name : ResolvedName} {«mutable» : Bool} {value condition : CoreExpression}
  {body update whenTrue whenFalse remaining : List CoreStatement} {statement : CoreStatement}

theorem verifyStatement_coreBind :
    verifyStatement environment returnType scope (.coreBind name valueType «mutable» value) = [] ↔
      0 < name.resolvedSymbol ∧ ResolvedType valueType ∧
        environment.find name.resolvedSymbol = none ∧ valueType = expressionType value ∧
        verifyExpression environment value = [] := by
  rw [verifyStatement]
  simp only [List.append_eq_nil_iff, invalidSymbol_eq_nil, unresolvedType_eq_nil, reportWhen_eq_nil,
    Option.isSome_eq_false_iff, Option.isNone_iff_eq_none, typeMismatch_eq_nil, and_assoc]

theorem verifyStatement_coreAssign :
    verifyStatement environment returnType scope (.coreAssign name value) = [] ↔
      0 < name.resolvedSymbol ∧ verifyExpression environment value = [] ∧
        environment.find name.resolvedSymbol = some (expressionType value, true) := by
  rw [verifyStatement, List.append_eq_nil_iff, List.append_eq_nil_iff, invalidSymbol_eq_nil,
    and_assoc]
  refine and_congr_right fun _ => and_congr_right fun _ => ?_
  cases environment.find name.resolvedSymbol with
  | none => simp
  | some entry => obtain ⟨t, _ | _⟩ := entry <;> simp [typeMismatch_eq_nil]

theorem verifyStatement_coreReturn :
    verifyStatement environment returnType scope (.coreReturn value) = [] ↔
      verifyExpression environment value = [] ∧ returnType = expressionType value := by
  rw [verifyStatement, List.append_eq_nil_iff, typeMismatch_eq_nil]

theorem verifyStatement_coreIf :
    verifyStatement environment returnType scope (.coreIf condition whenTrue whenFalse) = [] ↔
      verifyExpression environment condition = [] ∧
        isConditionType (expressionType condition) = true ∧
        verifyStatements environment returnType scope whenTrue = [] ∧
        verifyStatements environment returnType scope whenFalse = [] := by
  rw [verifyStatement]
  simp only [List.append_eq_nil_iff, reportWhen_eq_nil, Bool.not_eq_false', and_assoc]

theorem verifyStatement_coreEvaluate :
    verifyStatement environment returnType scope (.coreEvaluate value) = [] ↔
      verifyExpression environment value = [] := by
  rw [verifyStatement]

theorem verifyStatement_coreWhile :
    verifyStatement environment returnType scope (.coreWhile condition body) = [] ↔
      verifyExpression environment condition = [] ∧
        isConditionType (expressionType condition) = true ∧
        verifyStatements environment returnType .inLoopBody body = [] := by
  rw [verifyStatement]
  simp only [List.append_eq_nil_iff, reportWhen_eq_nil, Bool.not_eq_false', and_assoc]

theorem verifyStatement_coreDoWhile :
    verifyStatement environment returnType scope (.coreDoWhile body condition) = [] ↔
      verifyStatements environment returnType .inLoopBody body = [] ∧
        verifyExpression environment condition = [] ∧
        isConditionType (expressionType condition) = true := by
  rw [verifyStatement]
  simp only [List.append_eq_nil_iff, reportWhen_eq_nil, Bool.not_eq_false', and_assoc]

theorem verifyStatement_coreFor :
    verifyStatement environment returnType scope (.coreFor condition body update) = [] ↔
      verifyExpression environment condition = [] ∧
        isConditionType (expressionType condition) = true ∧
        verifyStatements environment returnType .inLoopBody body = [] ∧
        verifyStatements environment returnType .inForUpdate update = [] := by
  rw [verifyStatement]
  simp only [List.append_eq_nil_iff, reportWhen_eq_nil, Bool.not_eq_false', and_assoc]

theorem verifyStatement_coreBreak :
    verifyStatement environment returnType scope .coreBreak = [] ↔ scope ≠ .outsideLoop := by
  rw [verifyStatement]; simp

theorem verifyStatement_coreContinue :
    verifyStatement environment returnType scope .coreContinue = [] ↔ scope = .inLoopBody := by
  rw [verifyStatement]; cases scope <;> simp

theorem verifyStatements_cons :
    verifyStatements environment returnType scope (statement :: remaining) = [] ↔
      verifyStatement environment returnType scope statement = [] ∧
        verifyStatements (statementEnvironment environment statement) returnType scope remaining
          = [] := by
  rw [verifyStatements, List.append_eq_nil_iff]

end Statements

/-- **An accepted module**: its functions have distinct symbols and each is accepted. -/
theorem functions_of_verifyCore {moduleValue accepted : CoreModule}
    (h : verifyCore moduleValue = .ok accepted) :
    (moduleValue.coreModuleFunctions.map CoreFunction.symbol).Nodup ∧
      ∀ function ∈ moduleValue.coreModuleFunctions,
        verifyFunction (functionEnvironment moduleValue.coreModuleFunctions) function = [] := by
  have hnil : moduleProblems moduleValue = [] := by
    unfold verifyCore at h
    split at h
    · assumption
    · cases h
  simp only [moduleProblems, List.append_eq_nil_iff, duplicates_eq_nil,
    List.flatMap_eq_nil_iff] at hnil
  exact ⟨hnil.1.1.2, hnil.2⟩

/-- The owners of an accepted module: one for a symbol, each with a path that is not empty. -/
theorem owners_of_verifyCore {moduleValue accepted : CoreModule} (h : verifyCore moduleValue = .ok accepted) :
    (moduleValue.coreModuleFunctionSources.map Prod.fst).Nodup ∧
      ∀ owner ∈ moduleValue.coreModuleFunctionSources, owner.2 ≠ "" := by
  have hnil : moduleProblems moduleValue = [] := by
    unfold verifyCore at h
    split at h
    · assumption
    · cases h
  simp only [moduleProblems, sourceCatalogProblems, List.append_eq_nil_iff, duplicates_eq_nil,
    reportWhen_eq_nil, List.map_eq_nil_iff, List.filter_eq_nil_iff] at hnil
  obtain ⟨⟨_, ⟨⟨⟨_, hpaths⟩, hnodup⟩, hcatalog⟩, _⟩, _⟩ := hnil
  refine ⟨hnodup, fun owner howner hempty => ?_⟩
  have hmem : owner.2 ∈ moduleValue.coreModuleSourceFiles := by simpa using hcatalog owner howner
  have := List.any_eq_false.mp hpaths owner.2 hmem
  simp [hempty] at this

/-- What acceptance of one function says. -/
theorem verifyFunction_eq_nil {functionScope : Environment} {function : CoreFunction} :
    verifyFunction functionScope function = [] ↔
      0 < function.symbol ∧ ResolvedType function.coreFunctionReturnType ∧
        (function.coreFunctionParameters.map fun p => p.1.resolvedSymbol).Nodup ∧
        function.coreFunctionParameters.flatMap verifyParameter = [] ∧
        verifyStatements (initialEnvironment functionScope function)
          function.coreFunctionReturnType .outsideLoop function.coreFunctionBody = [] ∧
        (function.coreFunctionReturnType = unitType ∨
          statementsAlwaysReturn function.coreFunctionBody = true) := by
  simp only [verifyFunction, List.append_eq_nil_iff, invalidSymbol_eq_nil, unresolvedType_eq_nil,
    duplicates_eq_nil, reportWhen_eq_nil, Bool.and_eq_false_imp, decide_eq_true_eq,
    Bool.not_eq_false', and_assoc, ne_eq, ← or_iff_not_imp_left, CoreFunction.symbol]

end Tala.Core
