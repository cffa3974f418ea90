import Tala.Analysis.DefiniteInitialization
import Tala.Xpp.OwnershipVerifier

/-!
# `Xpp.Verifier` — structure, types and initialization of Xpp modules

`verify` is the verifier every later stage trusts: symbols and blocks are declared once, operands and
results have the types of their storage, calls and closures fit their signatures, targets exist, storage
is initialized before it is read, and `verifyOwnership` finds nothing. A context carries the findings and
the place the next one is reported at; the place keeps its value from one check to the next, as in the
source.

The dataflow analyses take a number of steps; `verify` answers nothing when it is not enough for one of
them.
-/

namespace Tala.Xpp

open Library Tala.Core Tala.Native Tala.Analysis

/-- Code and message of a finding. -/
abbrev Problem := String × String

/-- The findings so far and the place of the next one. -/
structure Context where
  issues : List VerificationIssue
  function : SymbolId
  block : BlockId
  instruction : Nat

def Context.report (context : Context) (problems : List Problem) : Context :=
  { context with
    issues := context.issues ++ problems.map fun problem =>
      { code := problem.1, message := problem.2, function := context.function,
        block := context.block, instruction := context.instruction } }

/-- The types of the storage of a function, by symbol. -/
abbrev StorageCatalog := List (SymbolId × NativeType)

/-- Add a symbol unless it is there; whether it was added. -/
def tryEmplace (storage : StorageCatalog) (symbol : SymbolId) (type : NativeType) :
    StorageCatalog × Bool :=
  if (storage.lookup symbol).isSome then (storage, false) else (storage ++ [(symbol, type)], true)

/-- The functions a symbol operand may denote. -/
def findFunction (functions : List Function) (symbol : SymbolId) : Option Function :=
  functions.find? (fun function => function.symbol.id == symbol)

/-! ## Operands -/

def verifyOperand (storage : StorageCatalog) (functions : List Function) : Operand → List Problem
  | .literal type literal =>
      reportWhen (validateLiteral literal type).isSome
        ("TAP1010", "literal payload does not match its declared type")
  | .symbol type symbol =>
      if symbol = 0 then [("TAP1011", "symbol operand uses the reserved zero id")]
      else if isFunctionType type then
        -- the declarations first: a function identity is never taken for a closure in storage
        match findFunction functions symbol with
        | some direct =>
            reportWhen (type ≠ direct.type)
              ("TAP1024", "function operand signature differs from its declaration")
        | none =>
            match storage.lookup symbol with
            | none =>
                [("TAP1012", "callable operand refers to neither a function nor local storage")]
            | some stored =>
                reportWhen (stored ≠ type)
                  ("TAP1014", "callable operand type differs from its storage declaration")
      else
        match storage.lookup symbol with
        | none => [("TAP1013", "operand reads an undefined storage symbol")]
        | some stored =>
            reportWhen (stored ≠ type) ("TAP1014", "operand type differs from its storage declaration")

/-! ## Instructions -/

/-- The operand count of the opcodes that are checked by it alone. -/
def expectedArity : Opcode → Nat
  | .copy | .negate | .logicalNot | .bitwiseNot | .memoize | .retainStrong | .releaseStrong
  | .makeWeak | .lockWeak | .releaseWeak | .makeUnowned | .loadUnowned | .releaseUnowned => 1
  | .call | .makeClosure => 0
  | _ => 2

def verifyCall (operands : List Operand) (result : NativeType) : List Problem :=
  match operands with
  | .symbol type _ :: arguments =>
      if !isFunctionType type then
        [("TAP1015", "call must begin with a typed direct-function or closure-storage operand")]
      else
        match decompose type with
        | none => [("TAP1025", "call argument count does not match its signature")]
        | some (parameters, returned) =>
            if arguments.length ≠ parameters.length then
              [("TAP1025", "call argument count does not match its signature")]
            else
              (List.zip arguments parameters).flatMap (fun pair =>
                  reportWhen (pair.1.type ≠ pair.2)
                    ("TAP1026", "call argument type does not match its signature"))
                ++ reportWhen (result ≠ returned)
                  ("TAP1027", "call result type does not match its signature")
  | _ => [("TAP1015", "call must begin with a typed direct-function or closure-storage operand")]

/-- The words for a broken closure contract; the shape of the result is reported on its own. -/
def closureContractProblem : ClosureContractError → List Problem
  | .resultIsNotCallable => []
  | .targetHasTooFewParameters =>
      [("TAP1031", "lifted function has fewer parameters than closure captures")]
  | .captureTypeMismatch => [("TAP1032", "closure capture type differs from its lifted parameter")]
  | .publicParameterCountMismatch =>
      [("TAP1038", "lifted function public parameter count differs from the closure signature")]
  | .publicParameterTypeMismatch =>
      [("TAP1039", "lifted function public parameter type differs from the closure signature")]
  | .resultTypeMismatch =>
      [("TAP1040", "lifted function result differs from the closure signature")]

def verifyMakeClosure (functions : List Function) (value : Instruction) : List Problem :=
  let target := findFunction functions value.closureFunction
  reportWhen (value.closureFunction = 0 || target.isNone)
      ("TAP1028", "closure operation refers to an unknown lifted function")
    ++ reportWhen (!isFunctionType value.resultType)
      ("TAP1029", "closure operation result must have a function type")
    ++ reportWhen (value.captureModes.length ≠ value.operands.length)
      ("TAP1030", "closure capture modes and operands differ in length")
    ++ (match target with
        | none => []
        | some lifted =>
            match validateClosure (value.operands.map Operand.type)
                (lifted.parameters.map Parameter.type) lifted.returnType value.resultType with
            | none => []
            | some error => closureContractProblem error)
    ++ (List.zip value.captureModes value.operands).flatMap fun pair =>
      reportWhen (pair.1 ≠ .strongCapture && !isAarcType pair.2.type)
        ("TAP1033", "weak and unowned captures require an AARC reference type")

def verifyOwnershipOperation (value : Instruction) : List Problem :=
  (match value.operands with
    | [operand] =>
        reportWhen (!isAarcType operand.type)
          ("TAP1035", "ownership instruction requires an AARC reference type")
    | _ => [("TAP1034", "ownership instruction requires exactly one operand")])
    ++ if value.opcode.consumesOwnership then
        reportWhen (value.effect ≠ .discard || value.resultType ≠ .scalar .unit)
          ("TAP1036", "release ownership instruction must discard a Unit result")
      else
        reportWhen (value.effect = .discard || value.operands.head?.map Operand.type ≠ some value.resultType)
          ("TAP1037", "producing ownership instruction must preserve its operand type")

/-- A subject a type test may ask about. -/
def isReferenceSubject (type : NativeType) : Bool :=
  isNamedType type || type = .scalar .string || isFunctionType type

def verifyTypeIs (value : Instruction) : List Problem :=
  let wellFormed :=
    match value.operands with
    | [subject, identity] =>
        value.resultType = .scalar .bool && isReferenceSubject subject.type
          && identity.type = .scalar .uint64
    | _ => false
  reportWhen (!wellFormed)
    ("TAP1045", "type test requires a reference subject, uint identity and Bool result")

/-- The function of the runtime that a first operand names. -/
def namedRuntimeFunction : List Operand → Option RuntimeFunction
  | .literal type literal :: _ => (identityOf literal type).bind findRuntimeFunction
  | _ => none

def verifyRuntimeCall (value : Instruction) : List Problem :=
  match checkRuntimeCall (namedRuntimeFunction value.operands) (value.operands.tail.map Operand.type)
      value.resultType with
  | none => []
  | some defect => [("TAP1048", runtimeDefectText defect)]

/-- A callable without parameters whose result is remembered by value. -/
def isMemoizable : NativeType → Bool
  | .function [result] => result = .scalar .bool || isNumeric result
  | _ => false

def verifyMemoize (value : Instruction) : List Problem :=
  let wellFormed :=
    match value.operands with
    | [callable] => isMemoizable callable.type && value.resultType = callable.type
    | _ => false
  reportWhen (!wellFormed)
    ("TAP1047", "memoization requires one callable without parameters whose result is Bool or numeric, and yields a callable of the same type")

def verifyFloorDivide (value : Instruction) : List Problem :=
  let wellFormed :=
    match value.operands with
    | [left, right] =>
        isNumeric left.type && left.type = right.type
          && value.resultType = if isFloating left.type then .scalar .int64 else left.type
    | _ => false
  reportWhen (!wellFormed)
    ("TAP1046", "rounded division requires matching numeric operands and its specified result type")

/-- What is wrong with the operation of an instruction. -/
def verifyOperation (functions : List Function) (value : Instruction) : List Problem :=
  if value.opcode = .call then verifyCall value.operands value.resultType
  else if value.opcode = .makeClosure then verifyMakeClosure functions value
  else if value.opcode.isOwnership then verifyOwnershipOperation value
  else if value.opcode = .typeIs then verifyTypeIs value
  else if value.opcode = .runtimeCall then verifyRuntimeCall value
  else if value.opcode = .memoize then verifyMemoize value
  else if value.opcode = .floorDivide then verifyFloorDivide value
  else
    reportWhen (value.operands.length ≠ expectedArity value.opcode)
      ("TAP1016", "instruction has the wrong operand count")

/-- What is wrong with the destination of an instruction. -/
def verifyDestination (storage : StorageCatalog) (value : Instruction) : List Problem :=
  if value.effect = .discard then
    reportWhen (value.destination ≠ 0) ("TAP1017", "discard instruction must not name a destination")
  else
    match storage.lookup value.destination with
    | none => [("TAP1018", "result destination does not name declared storage")]
    | some stored =>
        if value.destination = 0 then
          [("TAP1018", "result destination does not name declared storage")]
        else
          reportWhen (stored ≠ value.resultType)
            ("TAP1019", "result type differs from destination storage")

def verifyInstruction (storage : StorageCatalog) (functions : List Function) (value : Instruction) :
    List Problem :=
  verifyOperation functions value ++ verifyDestination storage value
    ++ value.operands.flatMap (verifyOperand storage functions)

/-! ## Terminators -/

def verifyTerminator (storage : StorageCatalog) (functions : List Function) (blocks : List BlockId)
    (returnType : NativeType) (value : Terminator) : List Problem :=
  match value.kind with
  | .ret =>
      verifyOperand storage functions value.value
        ++ reportWhen (value.value.type ≠ returnType)
          ("TAP1020", "return value type differs from the function result type")
  | .branch =>
      verifyOperand storage functions value.value
        ++ reportWhen (value.value.type ≠ .scalar .bool) ("TAP1021", "branch condition must be Bool")
        ++ reportWhen (value.trueTarget ∉ blocks || value.falseTarget ∉ blocks)
          ("TAP1022", "branch target does not name a function block")
  | .jump =>
      reportWhen (value.trueTarget ∉ blocks) ("TAP1023", "jump target does not name a function block")
  | .unreachable => []

/-! ## Initialization -/

/-- The storage an operand reads: a function of the module is none. -/
def appendStorageRead (storage : StorageCatalog) (functions : List Function) :
    Operand → List SymbolId
  | .symbol _ symbol =>
      if (findFunction functions symbol).isSome then []
      else if (storage.lookup symbol).isSome then [symbol] else []
  | .literal _ _ => []

def instructionAccess (storage : StorageCatalog) (functions : List Function) (index : Nat)
    (instruction : Instruction) : DefiniteInitialization.AccessPoint where
  instruction := index
  terminator := false
  reads := instruction.operands.flatMap (appendStorageRead storage functions)
  write :=
    if instruction.effect ≠ .discard ∧ (storage.lookup instruction.destination).isSome then
      some instruction.destination
    else none

def terminatorAccess (storage : StorageCatalog) (functions : List Function) (block : Block) :
    DefiniteInitialization.AccessPoint where
  instruction := block.instructions.length
  terminator := true
  reads :=
    if block.terminator.kind = .ret ∨ block.terminator.kind = .branch then
      appendStorageRead storage functions block.terminator.value
    else []
  write := none

def flowBlock (storage : StorageCatalog) (functions : List Function) (block : Block) :
    DefiniteInitialization.Block where
  id := block.id
  successors := block.terminator.successors
  accesses := (block.instructions.zipIdx.map fun p => instructionAccess storage functions p.2 p.1)
    ++ [terminatorAccess storage functions block]

/-- The function as definite initialization sees it. -/
def dataflowFunction (storage : StorageCatalog) (functions : List Function) (function : Function) :
    DefiniteInitialization.Function where
  entry := function.entry
  declarations := (storage.map Prod.fst).insertionSort (· ≤ ·)
  initiallyInitialized :=
    (function.parameters.map fun parameter => parameter.symbol.id).filter fun symbol =>
      (storage.lookup symbol).isSome
  blocks := function.blocks.map (flowBlock storage functions)

/-- Report the reads before initialization, each at its own place. -/
def reportInitialization (context : Context) : List DefiniteInitialization.Issue → Context
  | [] => context
  | issue :: rest =>
      if issue.kind = .readBeforeInitialization then
        reportInitialization
          (Context.report { context with block := issue.block, instruction := issue.instruction }
            [("TAP1041",
              if issue.terminator then
                "terminator reads storage that is not initialized on every incoming path"
              else "instruction reads storage that is not initialized on every incoming path")])
          rest
      else reportInitialization context rest

/-! ## Functions -/

/-- Declare the blocks; every record but the first of its identity is reported. -/
def declareBlocks (context : Context) (declared : List BlockId) : List Block → Context
  | [] => context
  | block :: rest =>
      if block.id ∈ declared then
        declareBlocks (Context.report { context with block := block.id }
          [("TAP1004", "block id is declared more than once")]) declared rest
      else declareBlocks context (block.id :: declared) rest

/-- Declare the storage of the parameters. -/
def declareParameters (context : Context) (storage : StorageCatalog) :
    List Parameter → Context × StorageCatalog
  | [] => (context, storage)
  | parameter :: rest =>
      let emplaced := tryEmplace storage parameter.symbol.id parameter.type
      if parameter.symbol.id = 0 then
        declareParameters
          (context.report [("TAP1006", "parameter storage symbol is missing or duplicated")]) storage rest
      else
        declareParameters
          (context.report (reportWhen (!emplaced.2)
            ("TAP1006", "parameter storage symbol is missing or duplicated"))) emplaced.1 rest

/-- Declare the storage an instruction defines. -/
def declareInstruction (state : Context × StorageCatalog) (instruction : Instruction × Nat) :
    Context × StorageCatalog :=
  let context := { state.1 with instruction := instruction.2 }
  let emplaced := tryEmplace state.2 instruction.1.destination instruction.1.resultType
  if instruction.1.effect ≠ .define then (context, state.2)
  else if instruction.1.destination = 0 then
    (context.report [("TAP1007", "defined storage symbol is missing or duplicated")], state.2)
  else
    (context.report (reportWhen (!emplaced.2)
      ("TAP1007", "defined storage symbol is missing or duplicated")), emplaced.1)

def declareBlock (state : Context × StorageCatalog) (block : Block) : Context × StorageCatalog :=
  block.instructions.zipIdx.foldl declareInstruction ({ state.1 with block := block.id }, state.2)

/-- Verify an instruction at its place. -/
def verifyInstructionAt (storage : StorageCatalog) (functions : List Function) (context : Context)
    (instruction : Instruction × Nat) : Context :=
  Context.report { context with instruction := instruction.2 }
    (verifyInstruction storage functions instruction.1)

/-- Verify the instructions and the terminator of a block, each at its place. -/
def verifyBlock (storage : StorageCatalog) (functions : List Function) (blocks : List BlockId)
    (returnType : NativeType) (context : Context) (block : Block) : Context :=
  let checked := block.instructions.zipIdx.foldl (verifyInstructionAt storage functions)
    { context with block := block.id }
  Context.report { checked with instruction := block.instructions.length }
    (verifyTerminator storage functions blocks returnType block.terminator)

/-- A normalized project-relative path of a source. -/
def isNormalizedSourcePath (path : String) : Bool :=
  let text := path.toList
  let segments := text.splitOn '/'
  text ≠ [] && text.head? ≠ some '/' && Char.ofNat 92 ∉ text && ':' ∉ text && Char.ofNat 0 ∉ text
    && ".tala".toList.isSuffixOf text
    && segments.getLast? ≠ some ".tala".toList
    && segments.all fun segment => segment ≠ [] && segment ≠ ['.'] && segment ≠ ['.', '.']

def sourceProblems (module : Module) (function : Function) : List Problem :=
  reportWhen (function.sourceFile ≠ "" && !isNormalizedSourcePath function.sourceFile)
      ("TAP1021", "Xpp function owner must be a normalized relative .tala path")
    ++ reportWhen (module.sourceFiles ≠ [] && function.sourceFile ∉ module.sourceFiles)
      ("TAP1021", "Xpp function owner is absent from the source catalog")

/-- The storage of a function: its parameters and what its instructions define. -/
def declareStorage (context : Context) (function : Function) : Context × StorageCatalog :=
  function.blocks.foldl declareBlock (declareParameters context [] function.parameters)

def verifyFunction (module : Module) (functions : List Function) (steps : Nat) (context : Context)
    (function : Function) : Option Context :=
  let blocks := function.blocks.map FlowProgram.Block.id
  let sources := Context.report { context with function := function.symbol.id }
    (sourceProblems module function)
  let entered := (declareBlocks sources [] function.blocks).report
    (reportWhen (function.entry ∉ blocks) ("TAP1005", "function entry does not name a block"))
  let declared := declareStorage entered function
  let checked := function.blocks.foldl
    (verifyBlock declared.2 functions blocks function.returnType) declared.1
  (DefiniteInitialization.analyze (dataflowFunction declared.2 functions function) false steps).map
    fun result => reportInitialization checked result.issues

/-! ## Modules -/

/-- The problems of the source catalog, in order. -/
def sourceFileProblems (seen : List String) : List String → List Problem
  | [] => []
  | sourceFile :: rest =>
      reportWhen (!isNormalizedSourcePath sourceFile)
          ("TAP1020", "Xpp source path must be a normalized relative .tala path")
        ++ reportWhen (sourceFile ∈ seen)
          ("TAP1020", "Xpp source catalog contains a duplicate path")
        ++ sourceFileProblems (sourceFile :: seen) rest

/-- Declare the functions; a missing, empty or repeated symbol is reported and not added. -/
def declareFunctions (context : Context) (declared : List Function) :
    List Function → Context × List Function
  | [] => (context, declared)
  | function :: rest =>
      if function.symbol.id = 0 ∨ function.symbol.spelling = ""
          ∨ (findFunction declared function.symbol.id).isSome then
        declareFunctions (Context.report { context with function := function.symbol.id }
          [("TAP1003", "function symbol is missing, empty, or duplicated")]) declared rest
      else declareFunctions context (declared ++ [function]) rest

/-- Verify a module. -/
def verify (module : Module) (steps : Nat) : Option (List VerificationIssue) :=
  let context : Context := { issues := [], function := 0, block := 0, instruction := 0 }
  let named := context.report
    (reportWhen (module.name = [] || "" ∈ module.name)
        ("TAP1001", "Xpp module name must contain non-empty components")
      ++ reportWhen (module.functions = []) ("TAP1002", "Xpp module contains no functions")
      ++ sourceFileProblems [] module.sourceFiles)
  let declared := declareFunctions named [] module.functions
  (module.functions.foldlM (verifyFunction module declared.2 steps) declared.1).bind fun checked =>
    (verifyOwnership module steps).map fun ownership => checked.issues ++ ownership

end Tala.Xpp
