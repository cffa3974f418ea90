/-!
# `Library.FlowProgram` — graphs of instruction blocks

A `Program` is a list of blocks: instructions of any kind, ended by a terminator.
-/

namespace Tala.Library.FlowProgram

inductive TerminatorKind
  | ret | branch | jump | unreachable
deriving DecidableEq, Repr

/-- The end of a block. It keeps the fields its kind does not use. -/
structure Terminator (Value : Type) where
  kind : TerminatorKind
  value : Value
  trueTarget : Nat
  falseTarget : Nat
deriving DecidableEq

structure Block (Instruction Value : Type) where
  id : Nat
  instructions : List Instruction
  terminator : Terminator Value
deriving DecidableEq

structure Program (Instruction Value : Type) where
  entry : Nat
  blocks : List (Block Instruction Value)
deriving DecidableEq

variable {Instruction Value : Type}

/-- The targets of a terminator, true before false. -/
def Terminator.successors (terminator : Terminator Value) : List Nat :=
  match terminator.kind with
  | .branch => [terminator.trueTarget, terminator.falseTarget]
  | .jump => [terminator.trueTarget]
  | .ret => []
  | .unreachable => []

/-- The values a terminator uses. -/
def Terminator.reads (terminator : Terminator Value) : List Value :=
  match terminator.kind with
  | .ret | .branch => [terminator.value]
  | .jump | .unreachable => []

/-- The first block record of an identity. -/
def Program.findBlock (program : Program Instruction Value) (id : Nat) :
    Option (Block Instruction Value) :=
  program.blocks.find? (fun block => block.id == id)

end Tala.Library.FlowProgram
