import Tala.Analysis.OwnershipFlow
import Tala.Xpp.IR

/-!
# `Xpp.OwnershipVerifier` — ownership flow of Xpp functions

`adapt` turns a function into the ownership actions of its blocks: a release consumes, every other read
of a reference observes, a result defines or forgets its destination. Operands that name a function of
the module are no handles. `verifyOwnership` runs the analysis and words its findings.
-/

namespace Tala.Xpp

open Tala.Native Tala.Analysis

/-- A finding of a verifier at its place. -/
structure VerificationIssue where
  code : String
  message : String
  function : SymbolId
  block : BlockId
  instruction : Nat
deriving DecidableEq, Repr

/-- The representation an ownership operation takes. -/
def inputKind : Opcode → OwnershipFlow.HandleKind
  | .lockWeak => .weak
  | .releaseWeak => .weak
  | .loadUnowned => .unowned
  | .releaseUnowned => .unowned
  | _ => .strong

/-- The representation an ownership operation produces. -/
def resultKind : Opcode → OwnershipFlow.HandleKind
  | .makeWeak => .weak
  | .makeUnowned => .unowned
  | _ => .strong

/-- The representation an instruction expects of its reference operands. -/
def Opcode.expectedKind (opcode : Opcode) : OwnershipFlow.HandleKind :=
  if opcode.isOwnership then inputKind opcode else .strong

/-- The representation of a reference result. -/
def Opcode.producedKind (opcode : Opcode) : OwnershipFlow.HandleKind :=
  if opcode.isOwnership then resultKind opcode else .strong

/-- The handle an operand reads: a reference that is no function of the module. -/
def Operand.handle? (functions : List SymbolId) : Operand → Option SymbolId
  | .symbol type id => if id ∈ functions || !isAarcType type then Option.none else some id
  | .literal _ _ => Option.none

/-- The actions of the operands and the result of an instruction. -/
def appendInstruction (functions : List SymbolId) (index : Nat) (instruction : Instruction) :
    List OwnershipFlow.Action :=
  let reads := instruction.operands.filterMap (Operand.handle? functions)
  reads.map (fun symbol =>
      { kind :=
          if instruction.opcode.isOwnership && instruction.opcode.consumesOwnership then .consume
          else .observe,
        handle := symbol, expected := instruction.opcode.expectedKind, instruction := index,
        terminator := false })
    ++ (if instruction.effect = .discard ∨ instruction.destination = 0 then []
        else
          [{ kind := if isAarcType instruction.resultType then .define else .forget,
             handle := instruction.destination, expected := instruction.opcode.producedKind,
             instruction := index, terminator := false }])

/-- The action of a returned reference. -/
def appendReturn (functions : List SymbolId) (block : Block) : List OwnershipFlow.Action :=
  if block.terminator.kind = .ret then
    match block.terminator.value.handle? functions with
    | none => []
    | some symbol =>
        [{ kind := .observe, handle := symbol, expected := .strong,
           instruction := block.instructions.length, terminator := true }]
  else []

def adaptBlock (functions : List SymbolId) (block : Block) : OwnershipFlow.Block where
  id := block.id
  successors := block.terminator.successors
  actions := (block.instructions.zipIdx.flatMap fun p => appendInstruction functions p.2 p.1)
    ++ appendReturn functions block

def adapt (functions : List SymbolId) (function : Function) : OwnershipFlow.Function where
  entry := function.entry
  initialHandles := (function.parameters.filter fun parameter => isAarcType parameter.type).map
    fun parameter => { handle := parameter.symbol.id, kind := .strong }
  blocks := function.blocks.map (adaptBlock functions)

/-- The words for a finding of the analysis; findings about the graph are reported elsewhere. -/
def translate (function : SymbolId) (issue : OwnershipFlow.Issue) : Option VerificationIssue :=
  let finding := fun (code message : String) =>
    some { code := code, message := message, function := function, block := issue.block,
           instruction := issue.instruction : VerificationIssue }
  match issue.kind with
  | .useAfterConsume =>
      finding "TAP1042"
        ((if issue.terminator then "return uses ownership handle "
            else "instruction uses ownership handle ")
          ++ toString issue.handle ++ " after it was released")
  | .handleKindMismatch =>
      finding "TAP1043" ("ownership operation uses handle " ++ toString issue.handle
        ++ " as the wrong runtime representation")
  | .pathStateMismatch =>
      finding "TAP1044" ("ownership handle " ++ toString issue.handle
        ++ " has incompatible live, released, or representation states across incoming paths")
  | _ => none

/-- The symbols of the functions of a module. -/
def Module.functionSymbols (module : Module) : List SymbolId :=
  (module.functions.map fun function => function.symbol.id).filter (· ≠ 0)

/-- The ownership findings of every function, after a number of steps for each analysis. -/
def verifyOwnership (module : Module) (steps : Nat) : Option (List VerificationIssue) :=
  (module.functions.mapM fun function =>
    (OwnershipFlow.analyze (adapt module.functionSymbols function) false steps).map fun result =>
      result.issues.filterMap (translate function.symbol.id)).map List.flatten

end Tala.Xpp
