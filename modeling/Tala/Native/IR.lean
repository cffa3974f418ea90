import Tala.CorePrep.Lowering

/-!
# `Native.IR` — the native form of Core and CorePrep

The native compiler reads Core from its wire form into trees of its own and lowers those. This module
has the native trees (`Expression`, `Statement`, `Function`, `Module`), the native prepared program
(`Instruction`, `Block`, …), and the two translations that say when a native value and a frontend value
are the same program: `Expression.ofCore` and its companions for Core, `Instruction.ofPrep` and its
companions for CorePrep.

A native record whose `kind` selects the active fields is an inductive type with those fields. The
stack of loop targets keeps its top, the `back` of the native vector, at the head. Integer payloads are
sign and magnitude; a Core literal may also hold a fixed-width integer, which the lowering normalizes.
-/

namespace Tala.Native

open Tala Tala.Core Tala.CorePrep

/-! ## Types and literals -/

/-- The type kinds without parts. -/
inductive ScalarKind
  | unit | bool | character | int8 | int16 | int32 | int64 | int128
  | uint8 | uint16 | uint32 | uint64 | uint128 | float16 | float32 | float64 | float128 | string
  deriving DecidableEq, Repr

mutual

/-- Structural type of the native stages. -/
inductive NativeType
  | scalar (kind : ScalarKind)
  /-- Parameters followed by the result. -/
  | function (components : List NativeType)
  | named (name : QualifiedName) (templateArguments : List NativeTemplateArgument)
  | typeVariable (symbol : ResolvedName)

inductive NativeTemplateArgument
  | type (type : NativeType)
  | value (value : TemplateValue)

end

/-- The wire tag of every type spelled as one word. -/
def scalarKinds : List (String × ScalarKind) :=
  [ ("unit", .unit), ("bool", .bool), ("int", .int64), ("String", .string), ("char", .character)
  , ("byte", .int8), ("short", .int16), ("long", .int32), ("longint", .int128), ("ubyte", .uint8)
  , ("ushort", .uint16), ("ulong", .uint32), ("uint", .uint64), ("ulongint", .uint128)
  , ("sfloat", .float16), ("lfloat", .float32), ("float", .float64), ("double", .float128) ]

mutual

/-- The native type of a Core type. An unresolved type has none and cannot cross the boundary; it is
read as the default type. -/
def NativeType.ofCore : Ty → NativeType
  | .namedType name arguments =>
      match scalarKinds.lookup (coreTypeSpelling (.namedType name arguments)) with
      | some kind => .scalar kind
      | none => .named name (NativeTemplateArgument.ofCoreMany arguments)
  | .functionType parameters result =>
      .function (NativeType.ofCoreMany parameters ++ [NativeType.ofCore result])
  | .typeVariable name => .typeVariable name
  | .errorType => .scalar .unit

def NativeType.ofCoreMany : List Ty → List NativeType
  | [] => []
  | parameter :: remaining => NativeType.ofCore parameter :: NativeType.ofCoreMany remaining

def NativeTemplateArgument.ofCoreMany : List TemplateArgument → List NativeTemplateArgument
  | [] => []
  | .typeTemplateArgument nested :: remaining =>
      .type (NativeType.ofCore nested) :: NativeTemplateArgument.ofCoreMany remaining
  | .valueTemplateArgument value :: remaining =>
      .value value :: NativeTemplateArgument.ofCoreMany remaining

end

/-- The kind of a type without parts. -/
def NativeType.scalarKind? : NativeType → Option ScalarKind
  | .scalar kind => some kind
  | _ => none

/-- `type == Type::boolean()`. -/
def NativeType.isBoolean (type : NativeType) : Bool := type.scalarKind?.any (· = .bool)

/-- `type.kind == Kind::Unit`. -/
def NativeType.isUnit (type : NativeType) : Bool := type.scalarKind?.any (· = .unit)

/-- `is_floating(type)`. -/
def NativeType.isFloating (type : NativeType) : Bool :=
  type.scalarKind?.any [ScalarKind.float16, .float32, .float64, .float128].contains

def NativeType.boolean : NativeType := .scalar .bool

/-- Sign and magnitude of an integer of any width. -/
structure IntegerLiteral where
  negative : Bool
  magnitude : Nat
  deriving DecidableEq, Repr

/-- `integer_from_signed`: the canonical form, in which zero is not negative. -/
def integerFromSigned (value : Int) : IntegerLiteral := ⟨value < 0, value.natAbs⟩

/-- Literal payloads. The fixed-width integers occur in Core only. -/
inductive Literal
  | monostate
  | boolean (value : Bool)
  | int64 (value : Int)
  | int32 (value : Int)
  | integer (value : IntegerLiteral)
  | floating (spelling : String)
  | text (value : String)
  deriving DecidableEq, Repr

/-- The payloads that stand for an integer in Core: fixed-width where it fits, canonical always. -/
inductive Literal.Spells : Literal → Int → Prop
  | int64 {value : Int} (h : -(2 ^ 63) ≤ value ∧ value < 2 ^ 63) : Spells (.int64 value) value
  | int32 {value : Int} (h : -(2 ^ 31) ≤ value ∧ value < 2 ^ 31) : Spells (.int32 value) value
  | integer (value : Int) : Spells (.integer (integerFromSigned value)) value

/-- A choice of payload for every integer literal of a module. -/
structure Spelling where
  payload : Int → Literal
  spells : ∀ value, (payload value).Spells value

/-- The spelling every wire reader produces. -/
def Spelling.canonical : Spelling := ⟨fun value => .integer (integerFromSigned value), .integer⟩

/-! ## Core trees -/

mutual

inductive Expression
  | var (symbol : ResolvedName) (type : NativeType)
  | literal (literal : Literal) (type : NativeType)
  | apply (callee : Expression) (operands : List Expression) (type : NativeType)
  | primitive (primitive : CorePrimitive) (operands : List Expression) (type : NativeType)
  | closure (captures : List Capture) (closureParameters : List (ResolvedName × NativeType))
      (closureReturnType : NativeType) (closureBody : List Statement) (type : NativeType)
  | letIn (letSymbol : ResolvedName) (letType : NativeType) (letValue letBody : Expression)
      (type : NativeType)
  | conditional (test whenTrue whenFalse : Expression) (type : NativeType)

inductive Capture
  | capture (mode : CaptureMode) (symbol : ResolvedName) (type : NativeType) (value : Expression)

inductive Statement
  | bind (symbol : ResolvedName) (type : NativeType) (mutableBinding : Bool) (value : Expression)
  | assign (destination : ResolvedName) (expression : Expression)
  | ret (expression : Expression)
  | cond (expression : Expression) (trueBranch falseBranch : List Statement)
  | evaluate (expression : Expression)
  | whileLoop (expression : Expression) (loopBody : List Statement)
  | doWhile (loopBody : List Statement) (expression : Expression)
  | forLoop (expression : Expression) (loopBody loopUpdate : List Statement)
  | breakLoop
  | continueLoop

end

def Capture.symbol : Capture → ResolvedName | .capture _ symbol _ _ => symbol
def Capture.type : Capture → NativeType | .capture _ _ type _ => type
def Capture.value : Capture → Expression | .capture _ _ _ value => value

/-- A parameter or any other name with its type. -/
abbrev Parameter := ResolvedName × NativeType

structure Function where
  symbol : ResolvedName
  parameters : List Parameter
  returnType : NativeType
  body : List Statement
  sourceFile : String

structure Module where
  name : QualifiedName
  functions : List Function
  sourceFiles : List String

/-- The static type of an expression. -/
def Expression.type : Expression → NativeType
  | .var _ type => type
  | .literal _ type => type
  | .apply _ _ type => type
  | .primitive _ _ type => type
  | .closure _ _ _ _ type => type
  | .letIn _ _ _ _ type => type
  | .conditional _ _ _ type => type

/-! ## The native form of Core -/

section OfCore

variable (spelling : Spelling)

def Literal.ofCore : CoreLiteral → Literal
  | .coreInteger value => spelling.payload value
  | .coreFloating value => .floating value
  | .coreString value => .text value
  | .coreBoolean value => .boolean value
  | .coreUnit => .monostate
  | .coreNull => .monostate

/-- A name with the native form of its type. -/
def Parameter.ofCore (parameter : ResolvedName × Ty) : Parameter :=
  (parameter.1, NativeType.ofCore parameter.2)

mutual

def Expression.ofCore : CoreExpression → Expression
  | .coreVariable name valueType => .var name (NativeType.ofCore valueType)
  | .coreLiteral literal valueType =>
      .literal (Literal.ofCore spelling literal) (NativeType.ofCore valueType)
  | .coreApply callee arguments valueType =>
      .apply (Expression.ofCore callee) (Expression.ofCoreMany arguments)
        (NativeType.ofCore valueType)
  | .corePrimitive primitive arguments valueType =>
      .primitive primitive (Expression.ofCoreMany arguments) (NativeType.ofCore valueType)
  | .coreLet name bindingType value body valueType =>
      .letIn name (NativeType.ofCore bindingType) (Expression.ofCore value)
        (Expression.ofCore body) (NativeType.ofCore valueType)
  | .coreConditional condition whenTrue whenFalse valueType =>
      .conditional (Expression.ofCore condition) (Expression.ofCore whenTrue)
        (Expression.ofCore whenFalse) (NativeType.ofCore valueType)
  | .coreClosure captures parameters returnType body valueType =>
      .closure (Capture.ofCoreMany captures) (parameters.map Parameter.ofCore)
        (NativeType.ofCore returnType) (Statement.ofCoreMany body) (NativeType.ofCore valueType)

def Expression.ofCoreMany : List CoreExpression → List Expression
  | [] => []
  | expression :: remaining => Expression.ofCore expression :: Expression.ofCoreMany remaining

def Capture.ofCoreMany : List CoreCapture → List Capture
  | [] => []
  | .coreCapture mode name type value :: remaining =>
      .capture mode name (NativeType.ofCore type) (Expression.ofCore value)
        :: Capture.ofCoreMany remaining

def Statement.ofCore : CoreStatement → Statement
  | .coreBind name type «mutable» value =>
      .bind name (NativeType.ofCore type) «mutable» (Expression.ofCore value)
  | .coreAssign name value => .assign name (Expression.ofCore value)
  | .coreReturn value => .ret (Expression.ofCore value)
  | .coreIf condition whenTrue whenFalse =>
      .cond (Expression.ofCore condition) (Statement.ofCoreMany whenTrue)
        (Statement.ofCoreMany whenFalse)
  | .coreEvaluate value => .evaluate (Expression.ofCore value)
  | .coreWhile condition body => .whileLoop (Expression.ofCore condition) (Statement.ofCoreMany body)
  | .coreDoWhile body condition => .doWhile (Statement.ofCoreMany body) (Expression.ofCore condition)
  | .coreFor condition body update =>
      .forLoop (Expression.ofCore condition) (Statement.ofCoreMany body)
        (Statement.ofCoreMany update)
  | .coreBreak => .breakLoop
  | .coreContinue => .continueLoop

def Statement.ofCoreMany : List CoreStatement → List Statement
  | [] => []
  | statement :: remaining => Statement.ofCore statement :: Statement.ofCoreMany remaining

end

/-- A function with the source file that owns it. -/
def Function.ofCore (function : CoreFunction × String) : Function :=
  ⟨function.1.coreFunctionName, function.1.coreFunctionParameters.map Parameter.ofCore,
    NativeType.ofCore function.1.coreFunctionReturnType,
    Statement.ofCoreMany spelling function.1.coreFunctionBody, function.2⟩

/-- **The native form of a module**: every function with its owner's source file. -/
def Module.ofCore (moduleValue : CoreModule) : Module :=
  ⟨moduleValue.coreModuleName,
    (sourceOwned moduleValue).map (Function.ofCore spelling),
    moduleValue.coreModuleSourceFiles⟩

end OfCore

/-! ## Prepared programs -/

inductive Atom
  | var (symbol : ResolvedName) (type : NativeType)
  | constant (literal : Literal) (type : NativeType)

def Atom.type : Atom → NativeType
  | .var _ type => type
  | .constant _ type => type

structure PreparedCapture where
  mode : CaptureMode
  symbol : ResolvedName
  type : NativeType
  value : Atom

/-- Operations of instructions. Every primitive has the operation of its name. -/
inductive Operation
  | copy | call | makeClosure
  | primitive (primitive : CorePrimitive)

inductive InstructionKind
  | bind | assign | evaluate

/-- The symbol a native record holds before one is stored. -/
def noSymbol : ResolvedName := ⟨0, ""⟩

structure Instruction where
  kind : InstructionKind
  destination : ResolvedName
  type : NativeType
  mutableBinding : Bool
  operation : Operation
  operands : List Atom
  closureFunction : ResolvedName
  captures : List PreparedCapture

inductive Terminator
  | ret (value : Atom)
  | branch (value : Atom) (trueTarget falseTarget : Nat)
  | jump (target : Nat)
  | unreachable

structure Block where
  id : Nat
  instructions : List Instruction
  terminator : Terminator

structure PreparedFunction where
  symbol : ResolvedName
  parameters : List Parameter
  returnType : NativeType
  entry : Nat
  blocks : List Block
  sourceFile : String

structure PreparedModule where
  name : QualifiedName
  functions : List PreparedFunction
  sourceFiles : List String

/-! ## The native form of CorePrep -/

/-- Literals are in canonical form after lowering. -/
def Atom.ofPrep : CorePrepAtom → Atom
  | .corePrepVariable name valueType => .var name (NativeType.ofCore valueType)
  | .corePrepLiteral literal valueType =>
      .constant (Literal.ofCore Spelling.canonical literal) (NativeType.ofCore valueType)

def PreparedCapture.ofPrep (capture : CorePrepCapture) : PreparedCapture :=
  ⟨capture.corePrepCaptureMode, capture.corePrepCaptureName,
    NativeType.ofCore capture.corePrepCaptureType, Atom.ofPrep capture.corePrepCaptureAtom⟩

/-- The operation fields of an instruction: operation, operands, closure function and captures. -/
def operationOfPrep : CorePrepOperation → Operation × List Atom × ResolvedName × List PreparedCapture
  | .corePrepCopy atom => (.copy, [Atom.ofPrep atom], noSymbol, [])
  | .corePrepCall callee arguments => (.call, (callee :: arguments).map Atom.ofPrep, noSymbol, [])
  | .corePrepPrimitive primitive atoms =>
      (.primitive primitive, atoms.map Atom.ofPrep, noSymbol, [])
  | .corePrepMakeClosure function captures =>
      (.makeClosure, [], function, captures.map PreparedCapture.ofPrep)

/-- The type a discarded operation has: the result of the callee it calls. -/
def discardedType : CorePrepOperation → NativeType
  | .corePrepCall callee _ =>
      match corePrepAtomType callee with
      | .functionType _ result => NativeType.ofCore result
      | _ => .scalar .unit
  | _ => .scalar .unit

def Instruction.ofPrep : CorePrepInstruction → Instruction
  | .corePrepBind name valueType «mutable» operation =>
      let fields := operationOfPrep operation
      ⟨.bind, name, NativeType.ofCore valueType, «mutable», fields.1, fields.2.1, fields.2.2.1,
        fields.2.2.2⟩
  | .corePrepAssign name atom =>
      ⟨.assign, name, NativeType.ofCore (corePrepAtomType atom), false, .copy, [Atom.ofPrep atom],
        noSymbol, []⟩
  | .corePrepEvaluate operation =>
      let fields := operationOfPrep operation
      ⟨.evaluate, noSymbol, discardedType operation, false, fields.1, fields.2.1, fields.2.2.1,
        fields.2.2.2⟩

def Terminator.ofPrep : CorePrepTerminator → Terminator
  | .corePrepReturn atom => .ret (Atom.ofPrep atom)
  | .corePrepBranch atom trueTarget falseTarget => .branch (Atom.ofPrep atom) trueTarget falseTarget
  | .corePrepJump target => .jump target
  | .corePrepUnreachable => .unreachable

def Block.ofPrep (block : CorePrepBlock) : Block :=
  ⟨block.corePrepBlockId, block.corePrepBlockInstructions.map Instruction.ofPrep,
    Terminator.ofPrep block.corePrepBlockTerminator⟩

def PreparedFunction.ofPrep (function : CorePrepFunction) : PreparedFunction :=
  ⟨function.corePrepFunctionName, function.corePrepFunctionParameters.map Parameter.ofCore,
    NativeType.ofCore function.corePrepFunctionReturnType, function.corePrepFunctionEntry,
    function.corePrepFunctionBlocks.map Block.ofPrep, function.corePrepFunctionSourceFile⟩

def PreparedModule.ofPrep (moduleValue : CorePrepModule) : PreparedModule :=
  ⟨moduleValue.corePrepModuleName, moduleValue.corePrepModuleFunctions.map PreparedFunction.ofPrep,
    moduleValue.corePrepModuleSourceFiles⟩

/-! ## What the native type tests say about Core types -/

/-- A test on scalar kinds is a test on spellings when it agrees with one on every row. -/
theorem any_lookup_scalarKinds {test : ScalarKind → Bool} {spellings : List String}
    (hrows : ∀ row ∈ scalarKinds, test row.2 = spellings.contains row.1)
    (hspellings : ∀ spelling ∈ spellings, spelling ∈ scalarKinds.map Prod.fst) (spelling : String) :
    (scalarKinds.lookup spelling).any test = spellings.contains spelling := by
  cases hk : scalarKinds.lookup spelling with
  | some kind =>
      obtain ⟨l₁, l₂, hl, -⟩ := List.lookup_eq_some_iff.mp hk
      exact hrows (spelling, kind) (by rw [hl]; simp)
  | none =>
      have hnot : spelling ∉ spellings := fun hm => by
        obtain ⟨row, hrow, rfl⟩ := List.mem_map.mp (hspellings spelling hm)
        have := List.lookup_eq_none_iff.mp hk row hrow
        simp at this
      simp [hnot]

theorem scalarKind?_ofCore {valueType : Ty} (h : valueType ≠ .errorType) :
    (NativeType.ofCore valueType).scalarKind? = scalarKinds.lookup (coreTypeSpelling valueType) := by
  cases valueType with
  | namedType name arguments =>
      rw [NativeType.ofCore]
      split
      · next kind hk => rw [hk]; rfl
      · next hk => rw [hk]; rfl
  | functionType parameters result => rw [NativeType.ofCore]; rfl
  | typeVariable name => rw [NativeType.ofCore]; rfl
  | errorType => exact absurd rfl h

theorem coreTypeSpelling_eq {valueType : Ty} {spelling : String} (hs : spelling ≠ "") :
    coreTypeSpelling valueType = spelling ↔ valueType = namedType spelling := by
  constructor
  · intro h
    unfold coreTypeSpelling at h
    split at h
    · rw [← h]; rfl
    · exact absurd h.symm hs
  · rintro rfl; rfl

theorem isBoolean_ofCore (valueType : Ty) :
    (NativeType.ofCore valueType).isBoolean = decide (valueType = boolType) := by
  by_cases h : valueType = .errorType
  · subst h; decide
  · rw [NativeType.isBoolean, scalarKind?_ofCore h,
      any_lookup_scalarKinds (show ∀ row ∈ scalarKinds, _ = ["bool"].contains row.1 by decide)
        (by decide), Bool.eq_iff_iff,
      decide_eq_true_iff, boolType, ← coreTypeSpelling_eq (by decide)]
    simp

theorem isUnit_ofCore {valueType : Ty} (h : valueType ≠ .errorType) :
    (NativeType.ofCore valueType).isUnit = decide (valueType = unitType) := by
  rw [NativeType.isUnit, scalarKind?_ofCore h,
    any_lookup_scalarKinds (show ∀ row ∈ scalarKinds, _ = ["unit"].contains row.1 by decide)
      (by decide), Bool.eq_iff_iff,
    decide_eq_true_iff, unitType, ← coreTypeSpelling_eq (by decide)]
  simp

theorem isFloating_ofCore (valueType : Ty) :
    (NativeType.ofCore valueType).isFloating = isCoreFloatingType valueType := by
  by_cases h : valueType = .errorType
  · subst h; decide
  · rw [NativeType.isFloating, scalarKind?_ofCore h, isCoreFloatingType]
    exact any_lookup_scalarKinds (by decide) (by decide) _

end Tala.Native
