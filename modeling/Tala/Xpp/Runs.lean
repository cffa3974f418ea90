import Tala.Analysis.OwnershipSoundness
import Tala.Xpp.Verifier

/-!
# `Xpp.Runs` — what a run does to the locals of a function

A run is followed as far as safety needs: which type the value of every local has, and which token its
reference holds. `Function.Reaches` lists the points of all runs along any path; the entry may be a jump
target. `Function.SafeAt` says that nothing goes wrong at a point: what is read is there, has its type
and, for references, is live in the representation the reader expects, and a jump finds its block.
-/

namespace Tala.Xpp

open Library Tala.Core Tala.Native Tala.Analysis
open Tala.Analysis.OwnershipFlow (HandleKind HandleState liveState)

/-! ## Locals -/

/-- The local an operand reads. A callable operand that names a function of the module is that function;
every other symbol is a local. -/
def Operand.local? (functions : List Function) : Operand → Option SymbolId
  | .symbol type id =>
      if isFunctionType type && (findFunction functions id).isSome then Option.none else some id
  | .literal _ _ => Option.none

/-- A function declares its parameters and what its instructions define. -/
def Function.Declares (function : Function) (symbol : SymbolId) (type : NativeType) : Prop :=
  (∃ parameter ∈ function.parameters, parameter.symbol.id = symbol ∧ parameter.type = type) ∨
    ∃ block ∈ function.blocks, ∃ instruction ∈ block.instructions,
      instruction.effect = .define ∧ instruction.destination = symbol ∧ instruction.resultType = type

/-- The types of the values the locals hold, and the tokens of their references. -/
structure RunState where
  held : SymbolId → Option NativeType
  token : SymbolId → HandleState

/-- The token of a fresh value. -/
def tokenFor (type : NativeType) (kind : HandleKind) : HandleState :=
  if isAarcType type then liveState kind else .absent

/-- A caller supplies every parameter, references as strong ones, and nothing else. -/
def Function.Enters (function : Function) (state : RunState) : Prop :=
  (∀ parameter ∈ function.parameters, state.held parameter.symbol.id = some parameter.type ∧
      state.token parameter.symbol.id = tokenFor parameter.type .strong) ∧
    ∀ symbol, symbol ∉ function.parameters.map (fun parameter => parameter.symbol.id) →
      state.held symbol = none ∧ state.token symbol = .absent

/-! ## Instructions -/

/-- The type of the value an operand denotes. -/
def Operand.heldType (functions : List Function) (state : RunState) (operand : Operand) :
    Option NativeType :=
  match operand.local? functions with
  | Option.none => some operand.type
  | some id => state.held id

/-- The type of the value an instruction produces: a copy hands on what it reads, every other operation
makes a value of its result type. -/
def Instruction.producedType (functions : List Function) (state : RunState)
    (instruction : Instruction) : NativeType :=
  match instruction.opcode, instruction.operands with
  | .copy, [operand] => (operand.heldType functions state).getD instruction.resultType
  | _, _ => instruction.resultType

/-- The references an instruction gives back. -/
def Instruction.released (functions : List Function) (instruction : Instruction) : List SymbolId :=
  if instruction.opcode.consumesOwnership then
    (instruction.operands.filter fun operand => isAarcType operand.type).filterMap
      (Operand.local? functions)
  else []

/-- The state after an instruction: what it gives back is gone, its destination holds its result. -/
def Instruction.execute (functions : List Function) (instruction : Instruction) (state : RunState) :
    RunState :=
  let token := fun symbol =>
    if symbol ∈ instruction.released functions then HandleState.consumed else state.token symbol
  if instruction.effect = .discard then { state with token := token }
  else
    { held := Function.update state.held instruction.destination
        (some (instruction.producedType functions state)),
      token := Function.update token instruction.destination
        (tokenFor instruction.resultType instruction.opcode.producedKind) }

/-! ## Runs -/

/-- A point of a run: before an instruction of a block, or before its terminator. -/
structure Point where
  block : BlockId
  index : Nat
  state : RunState

/-- The points of the runs of a function along any path through allowed points. -/
inductive Function.Reaches (function : Function) (functions : List Function)
    (allowed : Point → Prop) : Point → Prop
  | enter {state : RunState} : function.Enters state → allowed ⟨function.entry, 0, state⟩ →
      Reaches function functions allowed ⟨function.entry, 0, state⟩
  | step {id : BlockId} {index : Nat} {state : RunState} {block : Block} {instruction : Instruction} :
      Reaches function functions allowed ⟨id, index, state⟩ → function.findBlock id = some block →
      block.instructions[index]? = some instruction →
      allowed ⟨id, index + 1, instruction.execute functions state⟩ →
      Reaches function functions allowed ⟨id, index + 1, instruction.execute functions state⟩
  | jump {id target : BlockId} {state : RunState} {block : Block} :
      Reaches function functions allowed ⟨id, block.instructions.length, state⟩ →
      function.findBlock id = some block → target ∈ block.terminator.successors →
      allowed ⟨target, 0, state⟩ → Reaches function functions allowed ⟨target, 0, state⟩

/-! ## Types of operations -/

/-- The types the verifier does not look at. Most operations on plain values are checked by their operand
count alone; the rules here are those of the next representation: copies keep their type, logic is on
Booleans, comparisons have operands of one type, bits are those of one integer type, arithmetic is on
one numeric type. A closure is made for a callable that has a result. -/
def Instruction.UncheckedFits (instruction : Instruction) : Prop :=
  match instruction.opcode with
  | .copy => ∀ operand ∈ instruction.operands, operand.type = instruction.resultType
  | .logicalAnd | .logicalOr | .logicalNot =>
      instruction.resultType = .scalar .bool ∧
        ∀ operand ∈ instruction.operands, operand.type = .scalar .bool
  | .compareLess | .compareLessEqual | .compareGreater | .compareGreaterEqual | .compareEqual
  | .compareNotEqual =>
      instruction.resultType = .scalar .bool ∧
        ∀ left right, instruction.operands = [left, right] → left.type = right.type
  | .shiftLeft | .shiftRight | .bitwiseAnd | .bitwiseXor | .bitwiseOr | .bitwiseNot =>
      isInteger instruction.resultType = true ∧
        ∀ operand ∈ instruction.operands, operand.type = instruction.resultType
  | .add | .subtract | .multiply | .divide | .remainder | .power | .negate =>
      isNumeric instruction.resultType = true ∧
        ∀ operand ∈ instruction.operands, operand.type = instruction.resultType
  | .makeClosure => (decompose instruction.resultType).isSome = true
  | _ => True

/-- The operand and result types of an instruction fit its operation. -/
def Instruction.Fits (functions : List Function) (instruction : Instruction) : Prop :=
  match instruction.opcode with
  | .call =>
      ∃ type callee arguments parameters, instruction.operands = .symbol type callee :: arguments ∧
        decompose type = some (parameters, instruction.resultType) ∧
        arguments.map Operand.type = parameters
  | .makeClosure =>
      ∃ lifted parameters, findFunction functions instruction.closureFunction = some lifted ∧
        decompose instruction.resultType = some (parameters, lifted.returnType) ∧
        lifted.parameters.map Parameter.type
          = instruction.operands.map Operand.type ++ parameters ∧
        instruction.captureModes.length = instruction.operands.length ∧
        ∀ pair ∈ List.zip instruction.captureModes instruction.operands,
          pair.1 = .strongCapture ∨ isAarcType pair.2.type = true
  | .releaseStrong | .releaseWeak | .releaseUnowned =>
      instruction.effect = .discard ∧ instruction.resultType = .scalar .unit ∧
        ∃ operand, instruction.operands = [operand] ∧ isAarcType operand.type = true
  | .retainStrong | .makeWeak | .lockWeak | .makeUnowned | .loadUnowned =>
      instruction.effect ≠ .discard ∧ ∃ operand, instruction.operands = [operand] ∧
        isAarcType operand.type = true ∧ instruction.resultType = operand.type
  | .typeIs =>
      instruction.resultType = .scalar .bool ∧ ∃ subject identity,
        instruction.operands = [subject, identity] ∧ isReferenceSubject subject.type = true ∧
          identity.type = .scalar .uint64
  | .runtimeCall =>
      ∃ named, namedRuntimeFunction instruction.operands = some named ∧
        instruction.operands.tail.length = (runtimeParameters named).length ∧
        (∀ pair ∈ List.zip (runtimeParameters named) (instruction.operands.tail.map Operand.type),
          accepts pair.1 pair.2 = true) ∧
        instruction.resultType = Native.resultType (runtimeResult named)
  | .memoize =>
      ∃ callable, instruction.operands = [callable] ∧ isMemoizable callable.type = true ∧
        instruction.resultType = callable.type
  | .floorDivide =>
      ∃ left right, instruction.operands = [left, right] ∧ isNumeric left.type = true ∧
        left.type = right.type ∧
        instruction.resultType = if isFloating left.type then .scalar .int64 else left.type
  | opcode => instruction.operands.length = expectedArity opcode ∧ instruction.UncheckedFits

/-! ## Safe points -/

/-- An operand is there to be read: a literal of its type, a function under its signature, or a declared
local that holds a value of its type and, when that is a reference, a live one of the expected
representation. -/
def Operand.Safe (function : Function) (functions : List Function) (state : RunState)
    (expected : HandleKind) : Operand → Prop
  | .literal type payload => validateLiteral payload type = Option.none
  | .symbol type id =>
      match (Operand.symbol type id).local? functions with
      | Option.none => ∃ direct, findFunction functions id = some direct ∧ type = direct.type
      | some _ => function.Declares id type ∧ state.held id = some type ∧
          (isAarcType type = true → state.token id = liveState expected)

/-- An instruction reads what is there, fits its types and has a declared destination. -/
structure Instruction.Safe (function : Function) (functions : List Function) (state : RunState)
    (instruction : Instruction) : Prop where
  reads : ∀ operand ∈ instruction.operands,
    operand.Safe function functions state instruction.opcode.expectedKind
  fits : instruction.Fits functions
  destination : instruction.effect = .discard ∨
    instruction.destination ≠ 0 ∧ function.Declares instruction.destination instruction.resultType

/-- A terminator reads what is there and leads to blocks of the function. -/
def Terminator.Safe (function : Function) (functions : List Function) (state : RunState)
    (terminator : Terminator) : Prop :=
  match terminator.kind with
  | .ret => terminator.value.Safe function functions state .strong ∧
      terminator.value.type = function.returnType
  | .branch => terminator.value.Safe function functions state .strong ∧
      terminator.value.type = .scalar .bool ∧
      ∀ target ∈ terminator.successors, (function.findBlock target).isSome = true
  | .jump => ∀ target ∈ terminator.successors, (function.findBlock target).isSome = true
  | .unreachable => True

/-- Nothing goes wrong at a point. -/
def Function.SafeAt (function : Function) (functions : List Function) (point : Point) : Prop :=
  ∃ block, function.findBlock point.block = some block ∧
    point.index ≤ block.instructions.length ∧
    (∀ instruction, block.instructions[point.index]? = some instruction →
      instruction.Safe function functions point.state) ∧
    (point.index = block.instructions.length →
      Terminator.Safe function functions point.state block.terminator)

/-! ## Points the verifier answers for -/

/-- The operands read at a point of a block. -/
def Block.readsAt (block : Block) (index : Nat) : List Operand :=
  match block.instructions[index]? with
  | some instruction => instruction.operands
  | none => block.terminator.reads

/-- A symbol that is read as a local names no function of the module. -/
def Operand.Unshared (functions : List Function) (operand : Operand) : Prop :=
  ∀ id, operand.local? functions = some id → findFunction functions id = Option.none

/-- The points the verifier answers for: no local that is read shares its identity with a function, the
types of an elementary operation fit, and the entry finds the references of the caller as the caller
passes them. -/
structure Function.Covered (function : Function) (functions : List Function) (point : Point) :
    Prop where
  unshared : ∀ block, function.findBlock point.block = some block →
    ∀ operand ∈ block.readsAt point.index, operand.Unshared functions
  fits : ∀ block, function.findBlock point.block = some block →
    ∀ instruction, block.instructions[point.index]? = some instruction → instruction.UncheckedFits
  reentry : point.block = function.entry → point.index = 0 →
    ∀ parameter ∈ function.parameters, isAarcType parameter.type = true →
      point.state.token parameter.symbol.id = .strong

end Tala.Xpp
