import Tala.Core.Verifier
import Tala.CorePrep.IR

/-!
# `CorePrep.Lowering` — from structured Core to basic blocks

`prepareCore` as the frontend computes it. Lowering an expression threads the state and the open block
and returns the blocks it closed, the block left open, the atom (or operation) and the next state;
lowering a statement list ends its last open block with a given terminator.

Two conventions keep the recursion structural. The helpers for short-circuit operators, conditionals
and loops take the *lowerings* of their parts (`Lowering`, `RegionLowering`) instead of the parts. And
where the source passes the blocks that follow a region down to cons onto, the region's blocks are
returned here and the caller appends, which is the same list.

Closures are lifted in generations: the functions of a module, then the functions lifted out of them,
and so on. The number of generations is bounded by the nesting of closures, and
`prepareGenerations_isSome` shows the bound `prepareCore` passes is always enough.
-/

namespace Tala.CorePrep

open Tala Tala.Core

/-- The counters and stacks of the lowering of one function. -/
structure PrepState where
  nextTemporary : Int
  nextBlock : Nat
  pendingFunctions : List (CoreFunction × String)
  currentSourceFile : String
  /-- Innermost first; each pair is the `break` exit and the `continue` target. -/
  loopTargets : List (Nat × Nat)

/-- The block instructions are being appended to, newest first. -/
structure OpenBlock where
  openBlockId : Nat
  openBlockInstructions : List CorePrepInstruction

/-- Lowering of an expression: closed blocks, open block, result, state. -/
abbrev Lowering (α : Type) := PrepState → OpenBlock → List CorePrepBlock × OpenBlock × α × PrepState

/-- Lowering of a statement list whose last open block ends with the given terminator. -/
abbrev RegionLowering :=
  CorePrepTerminator → PrepState → OpenBlock → List CorePrepBlock × PrepState

/-! ## Blocks, generated names and neutral values -/

def appendInstruction (openBlock : OpenBlock) (instruction : CorePrepInstruction) : OpenBlock :=
  { openBlock with openBlockInstructions := instruction :: openBlock.openBlockInstructions }

def closeBlock (openBlock : OpenBlock) (terminator : CorePrepTerminator) : CorePrepBlock :=
  ⟨openBlock.openBlockId, openBlock.openBlockInstructions.reverse, terminator⟩

/-- A compiler-owned name: its symbol, spelled after its purpose. -/
def generatedName (purpose : String) (identifier : Int) : ResolvedName :=
  ⟨identifier, purpose ++ toString identifier⟩

/-- Zero of a numeric type: a floating zero is a floating literal. -/
def zeroAtom (valueType : Ty) : CorePrepAtom :=
  if isCoreFloatingType valueType then .corePrepLiteral (.coreFloating "0") valueType
  else .corePrepLiteral (.coreInteger 0) valueType

/-- Literal that initializes a storage slot before its first real assignment. -/
def neutralAtom (valueType : Ty) : CorePrepAtom :=
  if valueType = boolType then .corePrepLiteral (.coreBoolean false) valueType
  else zeroAtom valueType

/-- Make the zero comparison of a numeric condition explicit. -/
def booleanizeAtom (state : PrepState) (openBlock : OpenBlock) (atom : CorePrepAtom) :
    OpenBlock × CorePrepAtom × PrepState :=
  if corePrepAtomType atom = boolType then (openBlock, atom, state)
  else
    let identifier := state.nextTemporary
    let temporary := generatedName "$condition" identifier
    let zero := zeroAtom (corePrepAtomType atom)
    let instruction :=
      CorePrepInstruction.corePrepBind temporary boolType false
        (.corePrepPrimitive .coreNotEqual [atom, zero])
    (appendInstruction openBlock instruction, .corePrepVariable temporary boolType,
      { state with nextTemporary := identifier + 1 })

def booleanizeMany (state : PrepState) (openBlock : OpenBlock) :
    List CorePrepAtom → OpenBlock × List CorePrepAtom × PrepState
  | [] => (openBlock, [], state)
  | atom :: remaining =>
      let (continued, boolean, after) := booleanizeAtom state openBlock atom
      let (finalOpen, later, final) := booleanizeMany after continued remaining
      (finalOpen, boolean :: later, final)

/-! ## Expressions -/

/-- Lower `&&` and `||` as control flow over a result slot. -/
def atomizeShortCircuit (primitive : CorePrimitive) (left right : Lowering CorePrepAtom) :
    Lowering CorePrepAtom := fun state openBlock =>
  let (leftBlocks, leftOpen, leftAtom, afterLeft) := left state openBlock
  let (conditionOpen, conditionAtom, afterCondition) := booleanizeAtom afterLeft leftOpen leftAtom
  let resultId := afterCondition.nextTemporary
  let resultName := generatedName "$shortcircuit" resultId
  let defaultValue :=
    CorePrepAtom.corePrepLiteral (.coreBoolean (primitive = .coreLogicalOr)) boolType
  let initializedOpen := appendInstruction conditionOpen
    (.corePrepBind resultName boolType true (.corePrepCopy defaultValue))
  let rightId := afterCondition.nextBlock
  let joinId := rightId + 1
  let afterReservation :=
    { afterCondition with nextTemporary := resultId + 1, nextBlock := joinId + 1 }
  let branch :=
    if primitive = .coreLogicalAnd then CorePrepTerminator.corePrepBranch conditionAtom rightId joinId
    else .corePrepBranch conditionAtom joinId rightId
  let header := closeBlock initializedOpen branch
  let (rightBlocks, rightOpen, rightAtom, afterRight) := right afterReservation ⟨rightId, []⟩
  let (booleanRightOpen, booleanRight, final) := booleanizeAtom afterRight rightOpen rightAtom
  let assignedRight := appendInstruction booleanRightOpen (.corePrepAssign resultName booleanRight)
  let rightExit := closeBlock assignedRight (.corePrepJump joinId)
  (leftBlocks ++ [header] ++ rightBlocks ++ [rightExit], ⟨joinId, []⟩,
    .corePrepVariable resultName boolType, final)

/-- Lower one arm of a conditional: assign the slot, then jump to the join. -/
def prepareArm (resultName : ResolvedName) (joinId : Nat) (armState : PrepState) (armId : Nat)
    (arm : Lowering CorePrepAtom) : List CorePrepBlock × CorePrepBlock × PrepState :=
  let (armBlocks, armOpen, armAtom, afterArm) := arm armState ⟨armId, []⟩
  let assigned := appendInstruction armOpen (.corePrepAssign resultName armAtom)
  (armBlocks, closeBlock assigned (.corePrepJump joinId), afterArm)

/-- Lower a conditional expression to a two-way branch over a result slot. -/
def atomizeConditional (condition whenTrue whenFalse : Lowering CorePrepAtom) (valueType : Ty) :
    Lowering CorePrepAtom := fun state openBlock =>
  let (conditionBlocks, conditionOpen, conditionAtom, afterCondition) := condition state openBlock
  let (booleanOpen, predicate, afterBoolean) :=
    booleanizeAtom afterCondition conditionOpen conditionAtom
  let resultId := afterBoolean.nextTemporary
  let resultName := generatedName "$conditional" resultId
  let initializedOpen := appendInstruction booleanOpen
    (.corePrepBind resultName valueType true (.corePrepCopy (neutralAtom valueType)))
  let trueId := afterBoolean.nextBlock
  let falseId := trueId + 1
  let joinId := falseId + 1
  let afterReservation :=
    { afterBoolean with nextTemporary := resultId + 1, nextBlock := joinId + 1 }
  let header := closeBlock initializedOpen (.corePrepBranch predicate trueId falseId)
  let (trueBlocks, trueExit, afterTrue) :=
    prepareArm resultName joinId afterReservation trueId whenTrue
  let (falseBlocks, falseExit, afterFalse) :=
    prepareArm resultName joinId afterTrue falseId whenFalse
  (conditionBlocks ++ [header] ++ trueBlocks ++ [trueExit] ++ falseBlocks ++ [falseExit],
    ⟨joinId, []⟩, .corePrepVariable resultName valueType, afterFalse)

/-- The operands of `&&`, `||` and `!` are tested, all others are used as they are. -/
def prepareOperands (primitive : CorePrimitive) (state : PrepState) (openBlock : OpenBlock)
    (atoms : List CorePrepAtom) : OpenBlock × List CorePrepAtom × PrepState :=
  if primitive.isLogical then booleanizeMany state openBlock atoms else (openBlock, atoms, state)

/-- Bind the result of an operation to a fresh temporary. -/
def bindTemporary (valueType : Ty) (lowering : Lowering CorePrepOperation) :
    Lowering CorePrepAtom := fun state openBlock =>
  let (closed, continued, operation, afterOperation) := lowering state openBlock
  let temporary := generatedName "$coreprep" afterOperation.nextTemporary
  let instruction := CorePrepInstruction.corePrepBind temporary valueType false operation
  (closed, appendInstruction continued instruction, .corePrepVariable temporary valueType,
    { afterOperation with nextTemporary := afterOperation.nextTemporary + 1 })

/-- Use an atom as the operation that copies it. -/
def copyAtom (lowering : Lowering CorePrepAtom) : Lowering CorePrepOperation :=
  fun state openBlock =>
    let (closed, continued, atom, after) := lowering state openBlock
    (closed, continued, .corePrepCopy atom, after)

/-- Bind the value of a `let`, then lower its body. -/
def atomizeLet (name : ResolvedName) (valueType : Ty) (value : Lowering CorePrepOperation)
    (body : Lowering CorePrepAtom) : Lowering CorePrepAtom := fun state openBlock =>
  let (valueBlocks, valueOpen, valueOperation, afterValue) := value state openBlock
  let boundOpen :=
    appendInstruction valueOpen (.corePrepBind name valueType false valueOperation)
  let (bodyBlocks, bodyOpen, bodyAtom, afterBody) := body afterValue boundOpen
  (valueBlocks ++ bodyBlocks, bodyOpen, bodyAtom, afterBody)

/-- Lower a call: the callee before its arguments. -/
def prepareCall (callee : Lowering CorePrepAtom) (arguments : Lowering (List CorePrepAtom)) :
    Lowering CorePrepOperation := fun state openBlock =>
  let (calleeBlocks, calleeOpen, calleeAtom, afterCallee) := callee state openBlock
  let (argumentBlocks, argumentOpen, argumentAtoms, afterArguments) :=
    arguments afterCallee calleeOpen
  (calleeBlocks ++ argumentBlocks, argumentOpen, .corePrepCall calleeAtom argumentAtoms,
    afterArguments)

/-- Lower an eager primitive. -/
def preparePrimitive (primitive : CorePrimitive) (arguments : Lowering (List CorePrepAtom)) :
    Lowering CorePrepOperation := fun state openBlock =>
  let (closed, continued, atoms, after) := arguments state openBlock
  let (finalOpen, preparedAtoms, final) := prepareOperands primitive after continued atoms
  (closed, finalOpen, .corePrepPrimitive primitive preparedAtoms, final)

/-- The function a closure is lifted to: its captures become leading parameters. -/
def liftedFunction (closureName : ResolvedName) (captures : List CoreCapture)
    (parameters : List (ResolvedName × Ty)) (returnType : Ty) (body : List CoreStatement) :
    CoreFunction :=
  ⟨closureName, captures.map (fun c => (c.coreCaptureName, c.coreCaptureType)) ++ parameters,
    returnType, body⟩

/-- Lower the creation of a closure and queue its lifted function. -/
def prepareClosure (captures : List CoreCapture) (parameters : List (ResolvedName × Ty))
    (returnType : Ty) (body : List CoreStatement) (values : Lowering (List CorePrepCapture)) :
    Lowering CorePrepOperation := fun state openBlock =>
  let closureId := state.nextTemporary
  let closureName := generatedName "$closure" closureId
  let (captureBlocks, captureOpen, preparedCaptures, afterCaptures) :=
    values { state with nextTemporary := closureId + 1 } openBlock
  let lifted := liftedFunction closureName captures parameters returnType body
  (captureBlocks, captureOpen, .corePrepMakeClosure closureName preparedCaptures,
    { afterCaptures with
      pendingFunctions :=
        afterCaptures.pendingFunctions ++ [(lifted, afterCaptures.currentSourceFile)] })

/-- The two short-circuit operators. -/
def isShortCircuit (primitive : CorePrimitive) : Bool :=
  primitive = .coreLogicalAnd || primitive = .coreLogicalOr

mutual

/-- Lower an expression to the atom that holds its value. -/
def atomize : CoreExpression → Lowering CorePrepAtom
  | .coreVariable name valueType => fun state openBlock =>
      ([], openBlock, .corePrepVariable name valueType, state)
  | .coreLiteral literal valueType => fun state openBlock =>
      ([], openBlock, .corePrepLiteral literal valueType, state)
  | .coreLet name valueType value body _ => fun state openBlock =>
      atomizeLet name valueType (fun s o => atomizeOperation value s o)
        (fun s o => atomize body s o) state openBlock
  | .corePrimitive primitive arguments valueType => fun state openBlock =>
      match arguments with
      | [left, right] =>
          if isShortCircuit primitive then
            atomizeShortCircuit primitive (fun s o => atomize left s o)
              (fun s o => atomize right s o) state openBlock
          else
            bindTemporary valueType
              (preparePrimitive primitive fun s o => atomizeMany [left, right] s o) state openBlock
      | operands =>
          bindTemporary valueType
            (preparePrimitive primitive fun s o => atomizeMany operands s o) state openBlock
  | .coreConditional condition whenTrue whenFalse valueType => fun state openBlock =>
      atomizeConditional (fun s o => atomize condition s o) (fun s o => atomize whenTrue s o)
        (fun s o => atomize whenFalse s o) valueType state openBlock
  | .coreApply callee arguments valueType => fun state openBlock =>
      bindTemporary valueType
        (prepareCall (fun s o => atomize callee s o) (fun s o => atomizeMany arguments s o))
        state openBlock
  | .coreClosure captures parameters returnType body valueType => fun state openBlock =>
      bindTemporary valueType
        (prepareClosure captures parameters returnType body fun s o => atomizeCaptures captures s o)
        state openBlock

/-- Lower an expression to the operation that computes its value. -/
def atomizeOperation : CoreExpression → Lowering CorePrepOperation
  | .coreVariable name valueType => fun state openBlock =>
      ([], openBlock, .corePrepCopy (.corePrepVariable name valueType), state)
  | .coreLiteral literal valueType => fun state openBlock =>
      ([], openBlock, .corePrepCopy (.corePrepLiteral literal valueType), state)
  | .coreLet name valueType value body _ => fun state openBlock =>
      copyAtom (atomizeLet name valueType (fun s o => atomizeOperation value s o)
        (fun s o => atomize body s o)) state openBlock
  | .corePrimitive primitive arguments _ => fun state openBlock =>
      match arguments with
      | [left, right] =>
          if isShortCircuit primitive then
            copyAtom (atomizeShortCircuit primitive (fun s o => atomize left s o)
              (fun s o => atomize right s o)) state openBlock
          else
            preparePrimitive primitive (fun s o => atomizeMany [left, right] s o) state openBlock
      | operands => preparePrimitive primitive (fun s o => atomizeMany operands s o) state openBlock
  | .coreConditional condition whenTrue whenFalse valueType => fun state openBlock =>
      copyAtom (atomizeConditional (fun s o => atomize condition s o)
        (fun s o => atomize whenTrue s o) (fun s o => atomize whenFalse s o) valueType)
        state openBlock
  | .coreApply callee arguments _ => fun state openBlock =>
      prepareCall (fun s o => atomize callee s o) (fun s o => atomizeMany arguments s o)
        state openBlock
  | .coreClosure captures parameters returnType body _ => fun state openBlock =>
      prepareClosure captures parameters returnType body (fun s o => atomizeCaptures captures s o)
        state openBlock

def atomizeMany : List CoreExpression → Lowering (List CorePrepAtom)
  | [] => fun state openBlock => ([], openBlock, [], state)
  | value :: remaining => fun state openBlock =>
      let (closed, continued, atom, after) := atomize value state openBlock
      let (laterBlocks, finalOpen, atoms, final) := atomizeMany remaining after continued
      (closed ++ laterBlocks, finalOpen, atom :: atoms, final)

def atomizeCaptures : List CoreCapture → Lowering (List CorePrepCapture)
  | [] => fun state openBlock => ([], openBlock, [], state)
  | .coreCapture mode name type value :: remaining => fun state openBlock =>
      let (closed, continued, atom, afterValue) := atomize value state openBlock
      let (laterBlocks, finalOpen, laterCaptures, final) :=
        atomizeCaptures remaining afterValue continued
      (closed ++ laterBlocks, finalOpen, ⟨mode, name, type, atom⟩ :: laterCaptures, final)

end

/-! ## Statements -/

/-- Close the current block at the innermost loop's `break` exit or `continue` target. -/
def closeLoopControl (state : PrepState) (openBlock : OpenBlock) (isBreak : Bool) :
    List CorePrepBlock × PrepState :=
  match state.loopTargets with
  | (breakTarget, continueTarget) :: _ =>
      ([closeBlock openBlock (.corePrepJump (if isBreak then breakTarget else continueTarget))],
        state)
  | [] => ([closeBlock openBlock .corePrepUnreachable], state)

/-- Lower a pre-test loop and route its body's fallthrough to the condition. -/
def prepareWhile (condition : Lowering CorePrepAtom) (body : RegionLowering) (state : PrepState)
    (incoming : OpenBlock) : List CorePrepBlock × OpenBlock × PrepState :=
  let conditionId := state.nextBlock
  let bodyId := conditionId + 1
  let exitId := bodyId + 1
  let reserved := { state with nextBlock := exitId + 1 }
  let entry := closeBlock incoming (.corePrepJump conditionId)
  let (conditionBlocks, conditionOpen, atom, afterCondition) := condition reserved ⟨conditionId, []⟩
  let (booleanOpen, predicate, afterBoolean) := booleanizeAtom afterCondition conditionOpen atom
  let branch := closeBlock booleanOpen (.corePrepBranch predicate bodyId exitId)
  let bodyState :=
    { afterBoolean with loopTargets := (exitId, conditionId) :: afterBoolean.loopTargets }
  let (bodyEnd, afterBody) := body (.corePrepJump conditionId) bodyState ⟨bodyId, []⟩
  let finalState := { afterBody with loopTargets := state.loopTargets }
  ([entry] ++ conditionBlocks ++ [branch] ++ bodyEnd, ⟨exitId, []⟩, finalState)

/-- Lower a post-test loop so even its first entered body reaches the test. -/
def prepareDoWhile (body : RegionLowering) (condition : Lowering CorePrepAtom) (state : PrepState)
    (incoming : OpenBlock) : List CorePrepBlock × OpenBlock × PrepState :=
  let bodyId := state.nextBlock
  let conditionId := bodyId + 1
  let exitId := conditionId + 1
  let reserved := { state with nextBlock := exitId + 1 }
  let entry := closeBlock incoming (.corePrepJump bodyId)
  let bodyState := { reserved with loopTargets := (exitId, conditionId) :: state.loopTargets }
  let (bodyEnd, afterBody) := body (.corePrepJump conditionId) bodyState ⟨bodyId, []⟩
  let (conditionBlocks, conditionOpen, atom, afterCondition) := condition afterBody ⟨conditionId, []⟩
  let (booleanOpen, predicate, afterBoolean) := booleanizeAtom afterCondition conditionOpen atom
  let branch := closeBlock booleanOpen (.corePrepBranch predicate bodyId exitId)
  let finalState := { afterBoolean with loopTargets := state.loopTargets }
  ([entry] ++ bodyEnd ++ conditionBlocks ++ [branch], ⟨exitId, []⟩, finalState)

/-- Lower a classic loop with a dedicated update block used by `continue`. -/
def prepareFor (condition : Lowering CorePrepAtom) (body update : RegionLowering)
    (state : PrepState) (incoming : OpenBlock) : List CorePrepBlock × OpenBlock × PrepState :=
  let conditionId := state.nextBlock
  let bodyId := conditionId + 1
  let updateId := bodyId + 1
  let exitId := updateId + 1
  let reserved := { state with nextBlock := exitId + 1 }
  let entry := closeBlock incoming (.corePrepJump conditionId)
  let (conditionBlocks, conditionOpen, atom, afterCondition) := condition reserved ⟨conditionId, []⟩
  let (booleanOpen, predicate, afterBoolean) := booleanizeAtom afterCondition conditionOpen atom
  let branch := closeBlock booleanOpen (.corePrepBranch predicate bodyId exitId)
  let bodyState :=
    { afterBoolean with loopTargets := (exitId, updateId) :: afterBoolean.loopTargets }
  let (bodyEnd, afterBody) := body (.corePrepJump updateId) bodyState ⟨bodyId, []⟩
  let updateState := { afterBody with loopTargets := (exitId, updateId) :: state.loopTargets }
  let (updateEnd, afterUpdate) := update (.corePrepJump conditionId) updateState ⟨updateId, []⟩
  let finalState := { afterUpdate with loopTargets := state.loopTargets }
  ([entry] ++ conditionBlocks ++ [branch] ++ bodyEnd ++ updateEnd, ⟨exitId, []⟩, finalState)

/-- Lower an `if`: three consecutive blocks are reserved once its condition is lowered. The blocks of
the header and both branches, the join left open, and the state after them. -/
def prepareIf (condition : Lowering CorePrepAtom) (trueBranch falseBranch : RegionLowering)
    (state : PrepState) (openBlock : OpenBlock) : List CorePrepBlock × OpenBlock × PrepState :=
  let (conditionBlocks, conditionOpen, conditionAtom, afterCondition) := condition state openBlock
  let (booleanOpen, booleanAtom, afterBoolean) :=
    booleanizeAtom afterCondition conditionOpen conditionAtom
  let trueId := afterBoolean.nextBlock
  let falseId := trueId + 1
  let joinId := falseId + 1
  let branchState := { afterBoolean with nextBlock := joinId + 1 }
  let (trueBlocks, afterTrue) := trueBranch (.corePrepJump joinId) branchState ⟨trueId, []⟩
  let (falseBlocks, afterFalse) := falseBranch (.corePrepJump joinId) afterTrue ⟨falseId, []⟩
  let header := closeBlock booleanOpen (.corePrepBranch booleanAtom trueId falseId)
  (conditionBlocks ++ header :: (trueBlocks ++ falseBlocks), ⟨joinId, []⟩, afterFalse)

/-- Lower what follows into the block an expression left open. -/
def continueWith {α : Type} (lowering : Lowering α) (instruction : α → Option CorePrepInstruction)
    (remaining : PrepState → OpenBlock → List CorePrepBlock × PrepState) (state : PrepState)
    (openBlock : OpenBlock) : List CorePrepBlock × PrepState :=
  let (closed, continued, result, after) := lowering state openBlock
  let appended := match instruction result with
    | some emitted => appendInstruction continued emitted
    | none => continued
  let (later, final) := remaining after appended
  (closed ++ later, final)

/-- Lower what follows into the block a statement left open. -/
def continueAfter (region : PrepState → OpenBlock → List CorePrepBlock × OpenBlock × PrepState)
    (remaining : PrepState → OpenBlock → List CorePrepBlock × PrepState) (state : PrepState)
    (openBlock : OpenBlock) : List CorePrepBlock × PrepState :=
  let (blocks, exitOpen, after) := region state openBlock
  let (tailBlocks, final) := remaining after exitOpen
  (blocks ++ tailBlocks, final)

/-- Whether an evaluated expression lowers to one result-discarding instruction: only a call does. -/
def discardsItsOperation : CoreExpression → Bool
  | .coreApply _ _ _ => true
  | _ => false

mutual

/-- Lower one statement and the statements after it. A `return`, `break` or `continue` closes its block
and drops what follows. -/
def prepareStatement : CoreStatement → RegionLowering → RegionLowering
  | .coreBind name type «mutable» value, remaining => fun ending =>
      continueWith (atomizeOperation value)
        (fun operation => some (.corePrepBind name type «mutable» operation)) (remaining ending)
  | .coreAssign name value, remaining => fun ending =>
      continueWith (atomize value) (fun atom => some (.corePrepAssign name atom)) (remaining ending)
  | .coreEvaluate value, remaining => fun ending =>
      if discardsItsOperation value then
        continueWith (atomizeOperation value) (fun operation => some (.corePrepEvaluate operation))
          (remaining ending)
      else continueWith (atomize value) (fun _ => none) (remaining ending)
  | .coreReturn value, _ => fun _ state openBlock =>
      let (closed, continued, atom, after) := atomize value state openBlock
      (closed ++ [closeBlock continued (.corePrepReturn atom)], after)
  | .coreIf condition trueBranch falseBranch, remaining => fun ending =>
      continueAfter (prepareIf (atomize condition)
          (fun e s o => prepareStatementsTo trueBranch e s o)
          (fun e s o => prepareStatementsTo falseBranch e s o)) (remaining ending)
  | .coreWhile condition body, remaining => fun ending =>
      continueAfter (prepareWhile (atomize condition) fun e s o => prepareStatementsTo body e s o)
        (remaining ending)
  | .coreDoWhile body condition, remaining => fun ending =>
      continueAfter
        (prepareDoWhile (fun e s o => prepareStatementsTo body e s o) (atomize condition))
        (remaining ending)
  | .coreFor condition body update, remaining => fun ending =>
      continueAfter (prepareFor (atomize condition)
          (fun e s o => prepareStatementsTo body e s o)
          (fun e s o => prepareStatementsTo update e s o)) (remaining ending)
  | .coreBreak, _ => fun _ state openBlock => closeLoopControl state openBlock true
  | .coreContinue, _ => fun _ state openBlock => closeLoopControl state openBlock false

/-- Lower statements into blocks, ending the last open block with the given terminator. -/
def prepareStatementsTo : List CoreStatement → RegionLowering
  | [] => fun ending state openBlock => ([closeBlock openBlock ending], state)
  | statement :: remaining => fun ending state openBlock =>
      prepareStatement statement (fun e s o => prepareStatementsTo remaining e s o) ending state
        openBlock

end

/-! ## Functions and modules -/

/-- What reaching the end of a function's body does. -/
def fallingOff (function : CoreFunction) : CorePrepTerminator :=
  if function.coreFunctionReturnType = unitType then
    .corePrepReturn (.corePrepLiteral .coreUnit unitType)
  else .corePrepUnreachable

def prepareFunction (state : PrepState) (function : CoreFunction) : CorePrepFunction × PrepState :=
  let (blocks, after) :=
    prepareStatementsTo function.coreFunctionBody (fallingOff function)
      { state with loopTargets := [] } ⟨0, []⟩
  (⟨function.coreFunctionName, state.currentSourceFile, function.coreFunctionParameters,
    function.coreFunctionReturnType, 0, blocks⟩, after)

/-- Prepare one generation of functions in order, collecting what is lifted out of them. -/
def prepareGeneration (state : PrepState) :
    List (CoreFunction × String) → List CorePrepFunction × List (CoreFunction × String) × PrepState
  | [] => ([], [], state)
  | (function, sourceFile) :: remaining =>
      let (prepared, afterFunction) :=
        prepareFunction { state with nextBlock := 1, currentSourceFile := sourceFile } function
      let pending := afterFunction.pendingFunctions
      let (later, lifted, final) :=
        prepareGeneration { afterFunction with pendingFunctions := [] } remaining
      (prepared :: later, pending ++ lifted, final)

/-- Prepare generations until one lifts nothing; `none` if the bound is too small. -/
def prepareGenerations : Nat → PrepState → List (CoreFunction × String) →
    Option (List CorePrepFunction × PrepState)
  | _, state, [] => some ([], state)
  | 0, _, _ :: _ => none
  | bound + 1, state, work =>
      let (functions, lifted, after) := prepareGeneration state work
      (prepareGenerations bound after lifted).map fun (later, final) => (functions ++ later, final)

mutual

/-- How deep closures nest in an expression. -/
def closureDepth : CoreExpression → Nat
  | .coreVariable _ _ => 0
  | .coreLiteral _ _ => 0
  | .coreApply callee arguments _ => max (closureDepth callee) (closureDepthMany arguments)
  | .corePrimitive _ arguments _ => closureDepthMany arguments
  | .coreLet _ _ value body _ => max (closureDepth value) (closureDepth body)
  | .coreConditional condition whenTrue whenFalse _ =>
      max (closureDepth condition) (max (closureDepth whenTrue) (closureDepth whenFalse))
  | .coreClosure captures _ _ body _ =>
      max (closureDepthCaptures captures) (closureDepthBody body + 1)

def closureDepthMany : List CoreExpression → Nat
  | [] => 0
  | expression :: remaining => max (closureDepth expression) (closureDepthMany remaining)

def closureDepthCaptures : List CoreCapture → Nat
  | [] => 0
  | .coreCapture _ _ _ value :: remaining => max (closureDepth value) (closureDepthCaptures remaining)

def closureDepthStatement : CoreStatement → Nat
  | .coreBind _ _ _ value => closureDepth value
  | .coreAssign _ value => closureDepth value
  | .coreReturn value => closureDepth value
  | .coreEvaluate value => closureDepth value
  | .coreIf condition whenTrue whenFalse =>
      max (closureDepth condition) (max (closureDepthBody whenTrue) (closureDepthBody whenFalse))
  | .coreWhile condition body => max (closureDepth condition) (closureDepthBody body)
  | .coreDoWhile body condition => max (closureDepthBody body) (closureDepth condition)
  | .coreFor condition body update =>
      max (closureDepth condition) (max (closureDepthBody body) (closureDepthBody update))
  | .coreBreak => 0
  | .coreContinue => 0

def closureDepthBody : List CoreStatement → Nat
  | [] => 0
  | statement :: remaining => max (closureDepthStatement statement) (closureDepthBody remaining)

end

/-- How deep closures nest in some functions: a bound on the generations they lift. -/
def closureGenerations (functions : List CoreFunction) : Nat :=
  functions.foldr (fun function depth => max (closureDepthBody function.coreFunctionBody) depth) 0 + 1

/-- The functions of a module, each with the source file that owns it. -/
def sourceOwned (moduleValue : CoreModule) : List (CoreFunction × String) :=
  let sourceOwners := Library.SortedMap.ofList moduleValue.coreModuleFunctionSources
  moduleValue.coreModuleFunctions.map fun function =>
    (function, (sourceOwners.find function.symbol).getD "")

/-- Adapt one verified module. Fresh identities start above every identity of the module: the scan
`symbolIds` of the source visits the symbols of `coreModuleSymbols`. -/
def prepareCore (moduleValue : CoreModule) : Except (List Diagnostic) CorePrepModule :=
  match verifyCore moduleValue with
  | .error problems => .error problems
  | .ok verified =>
      let initial : PrepState := ⟨nextCoreSymbolValue verified, 1, [], "", []⟩
      match prepareGenerations (closureGenerations verified.coreModuleFunctions) initial
          (sourceOwned verified) with
      | some (prepared, _) =>
          .ok ⟨verified.coreModuleName, prepared, verified.coreModuleSourceFiles⟩
      -- never taken: see `prepareGenerations_isSome`
      | none => .error []

end Tala.CorePrep
