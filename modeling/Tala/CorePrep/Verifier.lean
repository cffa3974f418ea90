import Tala.Core.Verifier
import Tala.CorePrep.IR

/-!
# `CorePrep.Verifier` — structure of lowered control flow and storage

`verifyCorePrep` runs after decoding and before native lowering. It collects the problems of every function
and accepts a module that has none. What later results use is that every atom of an accepted module was
checked (`verifyAtom_of_verifyCorePrep`).
-/

namespace Tala.CorePrep

open Tala Tala.Core

/-! ## Reports and types -/

def problem (code message : String) : Diagnostic := ⟨.corePrepStage, code, message⟩

/-- One report if a value occurs more than once. -/
def duplicateIds {α : Type} [DecidableEq α] (code message : String) (values : List α) : List Diagnostic :=
  reportWhen (values.length ≠ values.dedup.length) (problem code message)

/-- Types are checked again here: a module may have been built without the Core verifier. -/
def verifyType (context : String) (valueType : Ty) : List Diagnostic :=
  (validateTemplateType 128 valueType).map fun issue =>
    problem "TAC0024" ("invalid CorePrep " ++ context ++ " template type at "
      ++ renderTemplatePath issue.templateIssuePath ++ ": " ++ issue.templateIssueMessage)

def typeSpelling : Ty → String
  | .namedType [name] [] => name
  | _ => ""

def integerWidths : List (String × Bool × Nat) :=
  [ ("char", false, 32)
  , ("byte", true, 8)
  , ("short", true, 16)
  , ("long", true, 32)
  , ("int", true, 64)
  , ("longint", true, 128)
  , ("ubyte", false, 8)
  , ("ushort", false, 16)
  , ("ulong", false, 32)
  , ("uint", false, 64)
  , ("ulongint", false, 128) ]

def integerFits (valueType : Ty) (value : Int) : Bool :=
  match integerWidths.filter (fun row => row.1 = typeSpelling valueType) with
  | [(_, true, width)] => value ≥ -(2 ^ (width - 1)) && value ≤ 2 ^ (width - 1) - 1
  | [(_, false, width)] => value ≥ 0 && value ≤ 2 ^ width - 1
  | _ => false

def isIntegerType (valueType : Ty) : Bool := integerWidths.any fun row => row.1 = typeSpelling valueType

def isSignedIntegerType (valueType : Ty) : Bool :=
  integerWidths.any fun row => row.2.1 && row.1 = typeSpelling valueType

def isFloatingType (valueType : Ty) : Bool :=
  ["sfloat", "lfloat", "float", "double"].contains (typeSpelling valueType)

def isNumericType (valueType : Ty) : Bool := isIntegerType valueType || isFloatingType valueType

/-- The spellings that Core accepts as well. -/
def validFloatingSpelling (spelling : String) : Bool := validCoreFloatingSpelling spelling

/-- Callables, and names that are neither numbers nor unit. -/
def referenceLike : Ty → Bool
  | .functionType _ _ => true
  | .namedType name arguments =>
      !isNumericType (.namedType name arguments) && .namedType name arguments ≠ unitType
  | _ => false

/-- What a capture that does not own its value may hold. -/
def aarcReference : Ty → Bool
  | .functionType _ _ => true
  | .namedType name arguments =>
      .namedType name arguments ≠ unitType && .namedType name arguments ≠ boolType
        && .namedType name arguments ≠ intType
  | _ => false

/-! ## Atoms -/

def verifyLiteral (literal : CoreLiteral) (valueType : Ty) : List Diagnostic :=
  let fits : Bool :=
    match literal with
    | .coreInteger value => integerFits valueType value
    | .coreFloating spelling => isFloatingType valueType && validFloatingSpelling spelling
    | .coreString _ => valueType = stringType
    | .coreBoolean _ => valueType = boolType
    | .coreUnit => valueType = unitType
    | .coreNull => referenceLike valueType
  reportWhen (!fits)
    (problem "TAC0023" "CorePrep literal payload does not match its declared scalar type")

def verifyAtom (atom : CorePrepAtom) : List Diagnostic :=
  reportWhen (corePrepAtomType atom = .errorType) (problem "TAC0012" "CorePrep atom has an unresolved type")
    ++ verifyType "atom" (corePrepAtomType atom)
    ++ match atom with
      | .corePrepLiteral literal valueType => verifyLiteral literal valueType
      | .corePrepVariable _ _ => []

/-! ## Primitives -/

def isUnary (primitive : CorePrimitive) : Bool :=
  [.coreNegate, .coreLogicalNot, .coreBitwiseNot, .coreMemoize].contains primitive

def comparisonOrLogical (primitive : CorePrimitive) : Bool :=
  [.coreLessThan, .coreLessEqual, .coreGreaterThan, .coreGreaterEqual, .coreEqual, .coreNotEqual,
    .coreLogicalAnd, .coreLogicalOr, .coreLogicalNot, .coreTypeIs].contains primitive

def isLogical (primitive : CorePrimitive) : Bool :=
  [.coreLogicalAnd, .coreLogicalOr, .coreLogicalNot].contains primitive

def integerOnly (primitive : CorePrimitive) : Bool :=
  [.coreShiftLeft, .coreShiftRight, .coreBitwiseAnd, .coreBitwiseXor, .coreBitwiseOr,
    .coreBitwiseNot].contains primitive

/-- The function that the first atom of a runtime call names. -/
def runtimeFunctionNamed : List CorePrepAtom → Option RuntimeFunction
  | .corePrepLiteral (.coreInteger identity) valueType :: _ =>
      if valueType = intType then runtimeFunctionOf identity else none
  | _ => none

def memoizeProblem : Diagnostic :=
  problem "TAC0025" "CorePrep memoization requires a callable without parameters whose result is bool or numeric"

def operandProblems (primitive : CorePrimitive) (operandTypes : List Ty) : List Diagnostic :=
  let firstType := operandTypes.headD .errorType
  if primitive = .coreTypeIs then
    match operandTypes with
    | [subjectType, identityType] =>
        reportWhen (!(referenceLike subjectType && typeSpelling identityType = "uint"))
          (problem "TAC0024" "CorePrep type test requires a reference subject and uint identity")
    | _ => []
  else if primitive = .coreMemoize then
    match operandTypes with
    | [.functionType [] result] => reportWhen (!(result = boolType || isNumericType result)) memoizeProblem
    | _ => [memoizeProblem]
  else if !operandTypes.all (· = firstType) then
    [problem "TAC0019" "CorePrep primitive operand types do not agree"]
  else if isLogical primitive && !operandTypes.all (fun t => t = boolType || isNumericType t) then
    [problem "TAC0020" "CorePrep logical primitive requires bool or numeric operands"]
  else if integerOnly primitive && !operandTypes.all isIntegerType then
    [problem "TAC0022" "CorePrep bitwise primitive requires integer operands"]
  else if primitive = .coreNegate && !(isSignedIntegerType firstType || isFloatingType firstType) then
    [problem "TAC0021" "CorePrep negation requires a signed integer or floating operand"]
  else if !isLogical primitive && !operandTypes.all isNumericType
      && primitive ≠ .coreEqual && primitive ≠ .coreNotEqual then
    [problem "TAC0022" "CorePrep arithmetic or ordering primitive requires numeric operands"]
  else []

/-- An evaluated primitive has the error type for its result, which is not looked at. -/
def resultProblems (primitive : CorePrimitive) (operandTypes : List Ty) (resultType : Ty) : List Diagnostic :=
  let firstType := operandTypes.headD .errorType
  let expectedResult :=
    if comparisonOrLogical primitive then boolType
    else if primitive = .coreFloorDivide && isFloatingType firstType then intType
    else firstType
  reportWhen (resultType ≠ .errorType && resultType ≠ expectedResult)
    (problem "TAC0009" "CorePrep primitive result type is inconsistent")

def verifyPrimitive (primitive : CorePrimitive) (atoms : List CorePrepAtom) (resultType : Ty) :
    List Diagnostic :=
  if primitive = .coreRuntimeCall then
    -- The first atom names the function; the rest are its arguments.
    match runtimeCallDefect (runtimeFunctionNamed atoms) ((atoms.drop 1).map corePrepAtomType) resultType with
    | some defect => [problem "TAC0026" ("CorePrep " ++ runtimeDefectText defect)]
    | none => []
  else if atoms.length ≠ (if isUnary primitive then 1 else 2) then
    [problem "TAC0007" "CorePrep primitive has the wrong arity"]
  else if atoms.any (fun atom => corePrepAtomType atom = .errorType) then
    [problem "TAC0008" "CorePrep primitive contains an unresolved type"]
  else
    operandProblems primitive (atoms.map corePrepAtomType)
      ++ resultProblems primitive (atoms.map corePrepAtomType) resultType

/-! ## Operations, blocks and functions -/

def verifyCapture (capture : CorePrepCapture) : List Diagnostic :=
  let valueType := capture.corePrepCaptureType
  reportWhen (capture.corePrepCaptureName.resolvedSymbol ≤ 0)
      (problem "TAC0015" "CorePrep capture symbol must be positive")
    ++ reportWhen (valueType = .errorType) (problem "TAC0016" "CorePrep capture has an unresolved type")
    ++ reportWhen (corePrepAtomType capture.corePrepCaptureAtom ≠ valueType)
      (problem "TAC0017" "CorePrep capture atom type does not match its slot")
    ++ reportWhen (capture.corePrepCaptureMode ≠ .strongCapture && !aarcReference valueType)
      (problem "TAC0018" "non-owning capture requires an AARC reference value")
    ++ verifyType "capture" valueType
    ++ verifyAtom capture.corePrepCaptureAtom

/-- The result of a closure is callable; an evaluated one has the error type. -/
def closureResultMismatch : Ty → List Diagnostic
  | .functionType _ _ => []
  | .errorType => []
  | _ => [problem "TAC0014" "CorePrep closure result must have a callable type"]

def verifyOperation (resultType : Ty) : CorePrepOperation → List Diagnostic
  | .corePrepCopy atom =>
      verifyAtom atom ++ reportWhen (resultType ≠ .errorType && resultType ≠ corePrepAtomType atom)
        (problem "TAC0006" "CorePrep copy result type does not match its atom")
  | .corePrepCall callee arguments => verifyAtom callee ++ arguments.flatMap verifyAtom
  | .corePrepPrimitive primitive atoms => atoms.flatMap verifyAtom ++ verifyPrimitive primitive atoms resultType
  | .corePrepMakeClosure function captures =>
      reportWhen (function.resolvedSymbol ≤ 0)
          (problem "TAC0013" "CorePrep closure function symbol must be positive")
        ++ captures.flatMap verifyCapture
        ++ closureResultMismatch resultType

def verifyInstruction : CorePrepInstruction → List Diagnostic
  | .corePrepBind _ valueType _ operation => verifyType "binding" valueType ++ verifyOperation valueType operation
  | .corePrepAssign _ atom => verifyAtom atom
  | .corePrepEvaluate operation => verifyOperation .errorType operation

/-- The targets of a transfer are blocks of the function. -/
def verifyTargets (blockIds targets : List Nat) : List Diagnostic :=
  reportWhen (targets.any fun target => !blockIds.contains target)
    (problem "TAC0010" "CorePrep terminator targets a missing block")

def verifyTerminator (blockIds : List Nat) : CorePrepTerminator → List Diagnostic
  | .corePrepReturn atom => verifyAtom atom
  | .corePrepBranch atom trueTarget falseTarget =>
      verifyAtom atom
        ++ reportWhen (corePrepAtomType atom ≠ boolType)
          (problem "TAC0011" "CorePrep branch condition must be bool")
        ++ verifyTargets blockIds [trueTarget, falseTarget]
  | .corePrepJump target => verifyTargets blockIds [target]
  | .corePrepUnreachable => []

def verifyBlock (blockIds : List Nat) (block : CorePrepBlock) : List Diagnostic :=
  block.corePrepBlockInstructions.flatMap verifyInstruction
    ++ verifyTerminator blockIds block.corePrepBlockTerminator

/-- The symbols that the bindings of a block define. -/
def blockDefinitions (block : CorePrepBlock) : List Int :=
  block.corePrepBlockInstructions.filterMap fun
    | .corePrepBind name _ _ _ => some name.resolvedSymbol
    | _ => none

def verifyFunction (function : CorePrepFunction) : List Diagnostic :=
  let blocks := function.corePrepFunctionBlocks
  let blockIds := blocks.map CorePrepBlock.corePrepBlockId
  let parameterIds := function.corePrepFunctionParameters.map fun parameter => parameter.1.resolvedSymbol
  reportWhen (!blockIds.contains function.corePrepFunctionEntry)
      (problem "TAC0002" "CorePrep function entry block does not exist")
    ++ verifyType "function result" function.corePrepFunctionReturnType
    ++ function.corePrepFunctionParameters.flatMap (fun parameter => verifyType "function parameter" parameter.2)
    ++ duplicateIds "TAC0003" "duplicate CorePrep block id" blockIds
    ++ duplicateIds "TAC0004" "duplicate CorePrep parameter symbol" parameterIds
    ++ duplicateIds "TAC0005" "CorePrep symbol is defined more than once"
      (parameterIds ++ blocks.flatMap blockDefinitions)
    ++ blocks.flatMap (verifyBlock blockIds)

def duplicateFunctions (functions : List CorePrepFunction) : List Diagnostic :=
  duplicateIds "TAC0001" "duplicate CorePrep function symbol"
    (functions.map fun function => function.corePrepFunctionName.resolvedSymbol)

/-- The unchanged module when valid, or every problem. -/
def verifyCorePrep (moduleValue : CorePrepModule) : Except (List Diagnostic) CorePrepModule :=
  let problems := duplicateFunctions moduleValue.corePrepModuleFunctions
    ++ moduleValue.corePrepModuleFunctions.flatMap verifyFunction
  if problems = [] then .ok moduleValue else .error problems

/-! ## The atoms of a module -/

def CorePrepOperation.atoms : CorePrepOperation → List CorePrepAtom
  | .corePrepCopy atom => [atom]
  | .corePrepCall callee arguments => callee :: arguments
  | .corePrepPrimitive _ atoms => atoms
  | .corePrepMakeClosure _ captures => captures.map CorePrepCapture.corePrepCaptureAtom

def CorePrepInstruction.atoms : CorePrepInstruction → List CorePrepAtom
  | .corePrepBind _ _ _ operation => operation.atoms
  | .corePrepAssign _ atom => [atom]
  | .corePrepEvaluate operation => operation.atoms

def CorePrepTerminator.atoms : CorePrepTerminator → List CorePrepAtom
  | .corePrepReturn atom => [atom]
  | .corePrepBranch atom _ _ => [atom]
  | .corePrepJump _ => []
  | .corePrepUnreachable => []

def CorePrepBlock.atoms (block : CorePrepBlock) : List CorePrepAtom :=
  block.corePrepBlockInstructions.flatMap CorePrepInstruction.atoms ++ block.corePrepBlockTerminator.atoms

def CorePrepFunction.atoms (function : CorePrepFunction) : List CorePrepAtom :=
  function.corePrepFunctionBlocks.flatMap CorePrepBlock.atoms

/-- Every atom of a module, in the order of its document. -/
def CorePrepModule.atoms (moduleValue : CorePrepModule) : List CorePrepAtom :=
  moduleValue.corePrepModuleFunctions.flatMap CorePrepFunction.atoms

/-! ## Every atom is checked -/

theorem verifyOperation_atoms {resultType : Ty} {operation : CorePrepOperation}
    (h : verifyOperation resultType operation = []) : ∀ atom ∈ operation.atoms, verifyAtom atom = [] := by
  cases operation with
  | corePrepCopy atom =>
      obtain ⟨hatom, -⟩ := List.append_eq_nil_iff.mp h
      exact List.forall_mem_singleton.mpr hatom
  | corePrepCall callee arguments =>
      obtain ⟨hcallee, harguments⟩ := List.append_eq_nil_iff.mp h
      exact List.forall_mem_cons.mpr ⟨hcallee, List.flatMap_eq_nil_iff.mp harguments⟩
  | corePrepPrimitive primitive atoms =>
      obtain ⟨hatoms, -⟩ := List.append_eq_nil_iff.mp h
      exact List.flatMap_eq_nil_iff.mp hatoms
  | corePrepMakeClosure function captures =>
      obtain ⟨h, -⟩ := List.append_eq_nil_iff.mp h
      obtain ⟨-, hcaptures⟩ := List.append_eq_nil_iff.mp h
      intro atom hatom
      obtain ⟨capture, hcapture, rfl⟩ := List.mem_map.mp hatom
      exact (List.append_eq_nil_iff.mp (List.flatMap_eq_nil_iff.mp hcaptures capture hcapture)).2

theorem verifyInstruction_atoms {instruction : CorePrepInstruction} (h : verifyInstruction instruction = []) :
    ∀ atom ∈ instruction.atoms, verifyAtom atom = [] := by
  cases instruction with
  | corePrepBind name valueType «mutable» operation =>
      exact verifyOperation_atoms (List.append_eq_nil_iff.mp h).2
  | corePrepAssign name atom => exact List.forall_mem_singleton.mpr h
  | corePrepEvaluate operation => exact verifyOperation_atoms h

theorem verifyTerminator_atoms {blockIds : List Nat} {terminator : CorePrepTerminator}
    (h : verifyTerminator blockIds terminator = []) : ∀ atom ∈ terminator.atoms, verifyAtom atom = [] := by
  cases terminator with
  | corePrepReturn atom => exact List.forall_mem_singleton.mpr h
  | corePrepBranch atom trueTarget falseTarget =>
      obtain ⟨h, -⟩ := List.append_eq_nil_iff.mp h
      exact List.forall_mem_singleton.mpr (List.append_eq_nil_iff.mp h).1
  | corePrepJump target => exact nofun
  | corePrepUnreachable => exact nofun

theorem verifyBlock_atoms {blockIds : List Nat} {block : CorePrepBlock} (h : verifyBlock blockIds block = []) :
    ∀ atom ∈ block.atoms, verifyAtom atom = [] := by
  obtain ⟨hinstructions, hterminator⟩ := List.append_eq_nil_iff.mp h
  intro atom hatom
  rcases List.mem_append.mp hatom with hatom | hatom
  · obtain ⟨instruction, hinstruction, hatom⟩ := List.mem_flatMap.mp hatom
    exact verifyInstruction_atoms (List.flatMap_eq_nil_iff.mp hinstructions instruction hinstruction) atom hatom
  · exact verifyTerminator_atoms hterminator atom hatom

/-- **Every atom of an accepted module was checked.** -/
theorem verifyAtom_of_verifyCorePrep {moduleValue accepted : CorePrepModule}
    (h : verifyCorePrep moduleValue = .ok accepted) : ∀ atom ∈ moduleValue.atoms, verifyAtom atom = [] := by
  unfold verifyCorePrep at h
  dsimp only at h
  split at h
  · next hproblems =>
    intro atom hatom
    obtain ⟨function, hfunction, hatom⟩ := List.mem_flatMap.mp hatom
    obtain ⟨block, hblock, hatom⟩ := List.mem_flatMap.mp hatom
    have hverified : verifyFunction function = [] :=
      List.flatMap_eq_nil_iff.mp (List.append_eq_nil_iff.mp hproblems).2 function hfunction
    -- the blocks are the last part of a function
    have hblocks := (List.append_eq_nil_iff.mp hverified).2
    exact verifyBlock_atoms (List.flatMap_eq_nil_iff.mp hblocks block hblock) atom hatom
  · cases h

end Tala.CorePrep
