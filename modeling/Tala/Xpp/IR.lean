import Tala.Library.FlowProgram
import Tala.Native.Scalar

/-!
# `Xpp.IR` — functions as graphs of typed instructions

The Xpp program: operands, instructions with their effect on a destination, terminators, blocks and
functions. A terminator keeps the fields its kind does not use, as the source does; an operand is either
a symbol or a literal. Symbols and block identities are natural numbers, and zero is no symbol.
-/

namespace Tala.Xpp

open Library Library.FlowProgram Tala.Native

abbrev SymbolId := Nat
abbrev BlockId := Nat

/-- Typed operations of instructions. -/
inductive Opcode
  | copy | call | add | subtract | multiply | divide | floorDivide | remainder
  | compareLess | compareLessEqual | compareGreater | compareGreaterEqual | compareEqual
  | compareNotEqual | logicalAnd | logicalOr | negate | logicalNot | makeClosure
  | retainStrong | releaseStrong | makeWeak | lockWeak | releaseWeak
  | makeUnowned | loadUnowned | releaseUnowned
  | power | shiftLeft | shiftRight | bitwiseAnd | bitwiseXor | bitwiseOr | bitwiseNot
  | typeIs | memoize | runtimeCall
deriving DecidableEq, Repr

/-- An input of an instruction, with its static type. -/
inductive Operand
  | symbol (type : NativeType) (symbol : SymbolId)
  | literal (type : NativeType) (literal : Literal)
deriving DecidableEq

def Operand.type : Operand → NativeType
  | .symbol type _ => type
  | .literal type _ => type

/-- The payload of a record that holds none: the unit value. -/
def Operand.none : Operand := .literal (.scalar .unit) .monostate

/-- Whether an instruction introduces, stores or discards its result. -/
inductive Effect
  | define | store | discard
deriving DecidableEq, Repr

structure Instruction where
  effect : Effect
  opcode : Opcode
  destination : SymbolId
  resultType : NativeType
  operands : List Operand
  closureFunction : SymbolId
  captureModes : List CaptureMode
deriving DecidableEq

abbrev Terminator := FlowProgram.Terminator Operand

abbrev Block := FlowProgram.Block Instruction Operand

structure SymbolName where
  id : SymbolId
  spelling : String
deriving DecidableEq, Repr

structure Parameter where
  symbol : SymbolName
  type : NativeType
deriving DecidableEq

structure Function where
  symbol : SymbolName
  parameters : List Parameter
  returnType : NativeType
  entry : BlockId
  blocks : List Block
  sourceFile : String
deriving DecidableEq

structure Module where
  name : List String
  functions : List Function
  sourceFiles : List String
deriving DecidableEq

/-- The type of a function as a callable. -/
def Function.type (function : Function) : NativeType :=
  .function (function.parameters.map Parameter.type ++ [function.returnType])

/-- Opcodes of the explicit ownership operations. -/
def Opcode.isOwnership : Opcode → Bool
  | .retainStrong | .releaseStrong | .makeWeak | .lockWeak | .releaseWeak
  | .makeUnowned | .loadUnowned | .releaseUnowned => true
  | _ => false

/-- Opcodes that give a token back. -/
def Opcode.consumesOwnership : Opcode → Bool
  | .releaseStrong | .releaseWeak | .releaseUnowned => true
  | _ => false

/-- The blocks of a function. -/
def Function.program (function : Function) : FlowProgram.Program Instruction Operand where
  entry := function.entry
  blocks := function.blocks

/-- The first block record of an identity. -/
def Function.findBlock (function : Function) (id : BlockId) : Option Block :=
  function.program.findBlock id

end Tala.Xpp
