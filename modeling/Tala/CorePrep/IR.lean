import Tala.Core.IR

/-!
# `CorePrep.IR` — typed operations in explicit basic blocks

The form native lowering consumes. Operands are atoms, every computation is one instruction, and a
block ends in an explicit transfer of control.
-/

namespace Tala.CorePrep

open Tala Tala.Core

/-- A value already reduced to a symbol reference or a literal constant. -/
inductive CorePrepAtom
  | corePrepVariable (name : ResolvedName) (valueType : Ty)
  | corePrepLiteral (literal : CoreLiteral) (valueType : Ty)
  deriving DecidableEq

/-- Closure environment slot with its ownership mode and initializer. -/
structure CorePrepCapture where
  corePrepCaptureMode : CaptureMode
  corePrepCaptureName : ResolvedName
  corePrepCaptureType : Ty
  corePrepCaptureAtom : CorePrepAtom
  deriving DecidableEq

/-- One atom-only computation. -/
inductive CorePrepOperation
  | corePrepCopy (atom : CorePrepAtom)
  | corePrepCall (callee : CorePrepAtom) (arguments : List CorePrepAtom)
  | corePrepPrimitive (primitive : CorePrimitive) (atoms : List CorePrepAtom)
  | corePrepMakeClosure (function : ResolvedName) (captures : List CorePrepCapture)
  deriving DecidableEq

/-- A storage definition or side effect that executes in block order. -/
inductive CorePrepInstruction
  | corePrepBind (name : ResolvedName) (valueType : Ty) («mutable» : Bool)
      (operation : CorePrepOperation)
  | corePrepAssign (name : ResolvedName) (atom : CorePrepAtom)
  | corePrepEvaluate (operation : CorePrepOperation)
  deriving DecidableEq

/-- The control transfer that closes a block. -/
inductive CorePrepTerminator
  | corePrepReturn (atom : CorePrepAtom)
  | corePrepBranch (atom : CorePrepAtom) (trueTarget falseTarget : Nat)
  | corePrepJump (target : Nat)
  | corePrepUnreachable
  deriving DecidableEq

/-- A block identifier, ordered instructions and the final transfer. -/
structure CorePrepBlock where
  corePrepBlockId : Nat
  corePrepBlockInstructions : List CorePrepInstruction
  corePrepBlockTerminator : CorePrepTerminator
  deriving DecidableEq

/-- Function signature, entry block and control-flow body. -/
structure CorePrepFunction where
  corePrepFunctionName : ResolvedName
  corePrepFunctionSourceFile : String
  corePrepFunctionParameters : List (ResolvedName × Ty)
  corePrepFunctionReturnType : Ty
  corePrepFunctionEntry : Nat
  corePrepFunctionBlocks : List CorePrepBlock
  deriving DecidableEq

/-- Module identity, prepared functions and source files. -/
structure CorePrepModule where
  corePrepModuleName : QualifiedName
  corePrepModuleFunctions : List CorePrepFunction
  corePrepModuleSourceFiles : List String
  deriving DecidableEq

/-- The type of an atom. -/
def corePrepAtomType : CorePrepAtom → Ty
  | .corePrepVariable _ valueType => valueType
  | .corePrepLiteral _ valueType => valueType

end Tala.CorePrep
