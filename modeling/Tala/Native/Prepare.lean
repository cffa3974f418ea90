import Tala.Native.IR

/-!
# `Native.Prepare` — the native lowering from Core to CorePrep

One cursor is threaded through expressions and statements: the counters, the block being filled and the
blocks already finished. The walks the native code makes without recursion are written as it makes
them: `atomize` follows a chain of `let` bodies, `walkChain` descends into first operands with the
primitives it passed on an explicit stack, `beginConditionals` keeps the open conditionals of a chain of
false arms, `walkConditionalChain` keeps the joins of an `else if` chain, and
`highestFunctionSymbol` scans a function from two worklists.
-/

namespace Tala.Native

open Tala Tala.Core Tala.CorePrep

structure State where
  nextSymbol : Int
  nextBlock : Nat
  pendingFunctions : List Function
  /-- Innermost first; every pair is (break exit, continue target). -/
  loopTargets : List (Nat × Nat)

/-- The block receiving instructions plus every finished block. -/
structure Cursor where
  state : State
  block : Nat
  instructions : List Instruction
  closed : List Block
  /-- False after a return, break or continue ended the region. -/
  isOpen : Bool

namespace Cursor

def emit (cursor : Cursor) (instruction : Instruction) : Cursor :=
  { cursor with instructions := cursor.instructions ++ [instruction] }

/-- End the current block; no block is open until `openAt` is called. -/
def close (cursor : Cursor) (terminator : Terminator) : Cursor :=
  { cursor with
    closed := cursor.closed ++ [⟨cursor.block, cursor.instructions, terminator⟩]
    instructions := []
    isOpen := false }

def openAt (cursor : Cursor) (id : Nat) : Cursor :=
  { cursor with block := id, instructions := [], isOpen := true }

def jump (cursor : Cursor) (target : Nat) : Cursor := cursor.close (.jump target)

def branch (cursor : Cursor) (condition : Atom) (whenTrue whenFalse : Nat) : Cursor :=
  cursor.close (.branch condition whenTrue whenFalse)

/-- Take the next symbol, spelled after its purpose. -/
def temporary (cursor : Cursor) (purpose : String) : ResolvedName × Cursor :=
  let id := cursor.state.nextSymbol
  (⟨id, purpose ++ toString id⟩,
    { cursor with state := { cursor.state with nextSymbol := id + 1 } })

/-- Take consecutive block identities; the first of them is returned. -/
def reserveBlocks (cursor : Cursor) (count : Nat) : Nat × Cursor :=
  (cursor.state.nextBlock,
    { cursor with state := { cursor.state with nextBlock := cursor.state.nextBlock + count } })

def jumpIfOpen (cursor : Cursor) (target : Nat) : Cursor :=
  if cursor.isOpen then cursor.jump target else cursor

end Cursor

/-- The operation of an instruction about to be emitted. -/
structure OperationResult where
  operation : Operation
  operands : List Atom
  closureFunction : ResolvedName
  captures : List PreparedCapture

/-! ## Atoms and instructions -/

/-- The canonical form of a literal: fixed-width integers become sign and magnitude. -/
def lowerLiteral (literal : Literal) (type : NativeType) : Atom :=
  match literal with
  | .int64 value => .constant (.integer (integerFromSigned value)) type
  | .int32 value => .constant (.integer (integerFromSigned value)) type
  | literal => .constant literal type

def zeroForBooleanContext (type : NativeType) : Atom :=
  if type.isFloating then .constant (.floating "0") type
  else .constant (.integer (integerFromSigned 0)) type

/-- Canonicalize a numeric truth value to `value != 0` in the open block. -/
def booleanize (cursor : Cursor) (atom : Atom) : Atom × Cursor :=
  if atom.type.isBoolean then (atom, cursor)
  else
    let (temporary, cursor) := cursor.temporary "$condition"
    let operands := [atom, zeroForBooleanContext atom.type]
    (.var temporary .boolean,
      cursor.emit
        ⟨.bind, temporary, .boolean, false, .primitive .coreNotEqual, operands, noSymbol, []⟩)

def booleanizeAll (cursor : Cursor) : List Atom → List Atom × Cursor
  | [] => ([], cursor)
  | operand :: remaining =>
      let (boolean, cursor) := booleanize cursor operand
      let (later, cursor) := booleanizeAll cursor remaining
      (boolean :: later, cursor)

/-- Emit an instruction that takes the result of an operation. -/
def emitOperation (cursor : Cursor) (kind : InstructionKind) (symbol : ResolvedName)
    (type : NativeType) (mutableBinding : Bool) (operation : OperationResult) : Cursor :=
  cursor.emit ⟨kind, symbol, type, mutableBinding, operation.operation, operation.operands,
    operation.closureFunction, operation.captures⟩

/-- Emit a binding or an assignment that copies one atom. -/
def emitCopy (cursor : Cursor) (kind : InstructionKind) (symbol : ResolvedName) (type : NativeType)
    (mutableBinding : Bool) (value : Atom) : Cursor :=
  cursor.emit ⟨kind, symbol, type, mutableBinding, .copy, [value], noSymbol, []⟩

def copyOperation (atom : Atom) : OperationResult := ⟨.copy, [atom], noSymbol, []⟩

/-- Bind the result of an operation to a fresh temporary. -/
def bindTemporary (cursor : Cursor) (type : NativeType) (operation : OperationResult) :
    Atom × Cursor :=
  let (temporary, cursor) := cursor.temporary "$coreprep"
  (.var temporary type, emitOperation cursor .bind temporary type false operation)

/-! ## Expressions -/

/-- The slot and the join of a conditional whose false arm is being evaluated. -/
structure OpenConditional where
  result : ResolvedName
  type : NativeType
  joinId : Nat

/-- Store the value of the false arm and continue in the join. -/
def endConditional (cursor : Cursor) (conditional : OpenConditional) (value : Atom) :
    Atom × Cursor :=
  let cursor := emitCopy cursor .assign conditional.result conditional.type false value
  let cursor := (cursor.jump conditional.joinId).openAt conditional.joinId
  (.var conditional.result conditional.type, cursor)

/-- Complete the joins of a chain from the innermost outwards. -/
def endConditionals (cursor : Cursor) (value : Atom) : List OpenConditional → Atom × Cursor
  | [] => (value, cursor)
  | innermost :: enclosing =>
      let (value, cursor) := endConditional cursor innermost value
      endConditionals cursor value enclosing

/-- The neutral value of a conditional's slot. -/
def neutralValue (type : NativeType) : Atom :=
  if type.isBoolean then .constant (.boolean false) .boolean else zeroForBooleanContext type

/-- A primitive waiting for the value of its first operand. -/
structure ChainLink where
  primitive : CorePrimitive
  remainingOperands : List Expression
  type : NativeType

/-- The right operand of a short-circuit operator: `IsShortCircuit` of the primitive. -/
def ChainLink.shortCircuitOperand? (link : ChainLink) : Option Expression :=
  match link.remainingOperands with
  | [right] => if isShortCircuit link.primitive then some right else none
  | _ => none

theorem ChainLink.sizeOf_shortCircuitOperand? {link : ChainLink} {right : Expression}
    (h : link.shortCircuitOperand? = some right) :
    sizeOf right < sizeOf link.remainingOperands := by
  unfold shortCircuitOperand? at h
  split at h
  · next only heq =>
      split at h
      · cases h; rw [heq, List.cons.sizeOf_spec]; omega
      · cases h
  · cases h

/-- The stack of `walkChain`, as a termination measure. -/
noncomputable def chainWeight (chain : List ChainLink) : Nat :=
  (chain.map fun link => sizeOf link.remainingOperands + 1).sum

theorem chainWeight_cons (link : ChainLink) (chain : List ChainLink) :
    chainWeight (link :: chain) = sizeOf link.remainingOperands + 1 + chainWeight chain := by
  rw [chainWeight, List.map_cons, List.sum_cons, chainWeight]

mutual

/-- Evaluate an expression into the open block and return the atom that holds its value: first the
bindings of a chain of `let` bodies, then the chain of first operands. -/
def atomize (cursor : Cursor) : Expression → Atom × Cursor
  | .letIn symbol type value body _ => atomize (bindLet cursor symbol type value) body
  | expression => walkChain cursor [] expression
termination_by expression => (sizeOf expression, 4)
decreasing_by all_goals simp [Prod.lex_def, chainWeight]; try omega

/-- Descend into first operands, keeping the primitives passed; then complete them. -/
def walkChain (cursor : Cursor) (chain : List ChainLink) : Expression → Atom × Cursor
  | .primitive primitive (first :: remaining) type =>
      walkChain cursor (⟨primitive, remaining, type⟩ :: chain) first
  | expression =>
      let (atom, cursor) := atomizeLeaf cursor expression
      completeChain cursor atom chain
termination_by expression => (sizeOf expression + chainWeight chain, 3)
decreasing_by
  · rw [Prod.lex_def, chainWeight_cons, Expression.primitive.sizeOf_spec, List.cons.sizeOf_spec]
    simp only
    omega
  · rw [Prod.lex_def]; simp only; omega
  · rw [Prod.lex_def]; simp only; omega

/-- Complete the primitives of a chain from the innermost outwards. -/
def completeChain (cursor : Cursor) (atom : Atom) : List ChainLink → Atom × Cursor
  | [] => (atom, cursor)
  | innermost :: enclosing =>
      let (atom, cursor) := completeFirstOperand cursor innermost atom
      completeChain cursor atom enclosing
termination_by chain => (chainWeight chain, 2)
decreasing_by all_goals simp [Prod.lex_def, chainWeight]; try omega

/-- A primitive from the atom of its first operand. -/
def completeFirstOperand (cursor : Cursor) (link : ChainLink) (first : Atom) : Atom × Cursor :=
  match _h : link.shortCircuitOperand? with
  | some right => finishShortCircuit cursor link.primitive first right
  | none =>
      let (operation, cursor) := primitiveOperation cursor link first
      bindTemporary cursor link.type operation
termination_by (sizeOf link.remainingOperands, 3)
decreasing_by
  · have := ChainLink.sizeOf_shortCircuitOperand? _h
    simp [Prod.lex_def]; omega
  · simp [Prod.lex_def]

/-- Lower `&&` and `||` as control flow once the left operand has been evaluated. -/
def finishShortCircuit (cursor : Cursor) (primitive : CorePrimitive) (left : Atom)
    (right : Expression) : Atom × Cursor :=
  let isOr : Bool := primitive = .coreLogicalOr
  let (condition, cursor) := booleanize cursor left
  let (result, cursor) := cursor.temporary "$shortcircuit"
  let cursor := emitCopy cursor .bind result .boolean true (.constant (.boolean isOr) .boolean)
  let (rightId, cursor) := cursor.reserveBlocks 2
  let joinId := rightId + 1
  let cursor :=
    if isOr then cursor.branch condition joinId rightId else cursor.branch condition rightId joinId
  let (value, cursor) := atomize (cursor.openAt rightId) right
  let (value, cursor) := booleanize cursor value
  let cursor := emitCopy cursor .assign result .boolean false value
  (.var result .boolean, (cursor.jump joinId).openAt joinId)
termination_by (sizeOf right, 5)

/-- The operands of a primitive whose first operand was evaluated. -/
def primitiveOperation (cursor : Cursor) (link : ChainLink) (first : Atom) :
    OperationResult × Cursor :=
  let (remaining, cursor) := atomizeAll cursor link.remainingOperands
  let operands := first :: remaining
  let (operands, cursor) :=
    if link.primitive.isLogical then booleanizeAll cursor operands else (operands, cursor)
  (⟨.primitive link.primitive, operands, noSymbol, []⟩, cursor)
termination_by (sizeOf link.remainingOperands, 2)

/-- The atoms of expressions in order. -/
def atomizeAll (cursor : Cursor) : List Expression → List Atom × Cursor
  | [] => ([], cursor)
  | operand :: remaining =>
      let (atom, cursor) := atomize cursor operand
      let (later, cursor) := atomizeAll cursor remaining
      (atom :: later, cursor)
termination_by operands => (sizeOf operands, 1)

/-- An expression that is not walked in a loop; a `let` takes the first step of `atomize`. -/
def atomizeLeaf (cursor : Cursor) : Expression → Atom × Cursor
  | .var symbol type => (.var symbol type, cursor)
  | .literal literal type => (lowerLiteral literal type, cursor)
  | .letIn symbol type value body _ => atomize (bindLet cursor symbol type value) body
  | .conditional test whenTrue whenFalse type =>
      let (conditional, cursor) := beginConditional cursor test whenTrue type
      atomizeFalseArm cursor [conditional] whenFalse
  | .apply callee operands type =>
      let (operation, cursor) := callOperation cursor callee operands
      bindTemporary cursor type operation
  | .closure captures parameters returnType body type =>
      let (operation, cursor) := closureOperation cursor captures parameters returnType body
      bindTemporary cursor type operation
  | .primitive primitive _ type =>
      bindTemporary cursor type ⟨.primitive primitive, [], noSymbol, []⟩
termination_by expression => (sizeOf expression, 2)

/-- Evaluate the test and the true arm of a conditional and leave its false block open. -/
def beginConditional (cursor : Cursor) (test whenTrue : Expression) (type : NativeType) :
    OpenConditional × Cursor :=
  let (condition, cursor) := atomize cursor test
  let (condition, cursor) := booleanize cursor condition
  let (result, cursor) := cursor.temporary "$conditional"
  let cursor := emitCopy cursor .bind result type true (neutralValue type)
  let (trueId, cursor) := cursor.reserveBlocks 3
  let falseId := trueId + 1
  let joinId := falseId + 1
  let (value, cursor) := atomize ((cursor.branch condition trueId falseId).openAt trueId) whenTrue
  let cursor := emitCopy cursor .assign result type false value
  (⟨result, type, joinId⟩, (cursor.jump joinId).openAt falseId)
termination_by (sizeOf test + sizeOf whenTrue, 5)
decreasing_by all_goals simp [Prod.lex_def]; try omega

/-- Begin the conditionals of a chain, each nested in the false arm of the one before; evaluate the
last false arm, then complete the joins. -/
def atomizeFalseArm (cursor : Cursor) (conditionals : List OpenConditional) :
    Expression → Atom × Cursor
  | .conditional test whenTrue whenFalse type =>
      let (conditional, cursor) := beginConditional cursor test whenTrue type
      atomizeFalseArm cursor (conditional :: conditionals) whenFalse
  | expression =>
      let (atom, cursor) := atomize cursor expression
      endConditionals cursor atom conditionals
termination_by expression => (sizeOf expression, 5)
decreasing_by all_goals simp [Prod.lex_def]; try omega

/-- The callee of a call, then its arguments. -/
def callOperation (cursor : Cursor) (callee : Expression) (operands : List Expression) :
    OperationResult × Cursor :=
  let (callee, cursor) := atomize cursor callee
  let (arguments, cursor) := atomizeAll cursor operands
  (⟨.call, callee :: arguments, noSymbol, []⟩, cursor)
termination_by (sizeOf callee + sizeOf operands, 5)
decreasing_by all_goals simp [Prod.lex_def]; try omega

def closureOperation (cursor : Cursor) (captures : List Capture) (parameters : List Parameter)
    (returnType : NativeType) (body : List Statement) : OperationResult × Cursor :=
  let (closureName, cursor) := cursor.temporary "$closure"
  let (prepared, cursor) := atomizeCaptures cursor captures
  let hidden := captures.map fun capture => (capture.symbol, capture.type)
  let lifted : Function := ⟨closureName, hidden ++ parameters, returnType, body, ""⟩
  (⟨.makeClosure, [], closureName, prepared⟩,
    { cursor with
      state := { cursor.state with
        pendingFunctions := cursor.state.pendingFunctions ++ [lifted] } })
termination_by (sizeOf captures, 1)

def atomizeCaptures (cursor : Cursor) : List Capture → List PreparedCapture × Cursor
  | [] => ([], cursor)
  | .capture mode symbol type value :: remaining =>
      let (atom, cursor) := atomize cursor value
      let (later, cursor) := atomizeCaptures cursor remaining
      (⟨mode, symbol, type, atom⟩ :: later, cursor)
termination_by captures => (sizeOf captures, 0)

/-- Bind the value of a `let`; its body follows. -/
def bindLet (cursor : Cursor) (symbol : ResolvedName) (type : NativeType) (value : Expression) :
    Cursor :=
  let (operation, cursor) := atomizeOperation cursor value
  emitOperation cursor .bind symbol type false operation
termination_by (sizeOf value, 7)

/-- Evaluate an expression to the operation that computes its value. -/
def atomizeOperation (cursor : Cursor) : Expression → OperationResult × Cursor
  | .var symbol type => (copyOperation (.var symbol type), cursor)
  | .literal literal type => (copyOperation (lowerLiteral literal type), cursor)
  | .apply callee operands _ => callOperation cursor callee operands
  | .closure captures parameters returnType body _ =>
      closureOperation cursor captures parameters returnType body
  | .primitive primitive [] _ => (⟨.primitive primitive, [], noSymbol, []⟩, cursor)
  | .primitive primitive (first :: remaining) type =>
      let link : ChainLink := ⟨primitive, remaining, type⟩
      if link.shortCircuitOperand?.isSome then
        let (atom, cursor) := atomize cursor (.primitive primitive (first :: remaining) type)
        (copyOperation atom, cursor)
      else
        let (atom, cursor) := atomize cursor first
        primitiveOperation cursor link atom
  | expression =>
      let (atom, cursor) := atomize cursor expression
      (copyOperation atom, cursor)
termination_by expression => (sizeOf expression, 6)

end

/-! ## Statements -/

/-- Evaluate a loop or branch condition in the open block and branch on its Boolean atom. -/
def branchOnCondition (cursor : Cursor) (condition : Expression) (whenTrue whenFalse : Nat) :
    Cursor :=
  let (atom, cursor) := atomize cursor condition
  let (atom, cursor) := booleanize cursor atom
  cursor.branch atom whenTrue whenFalse

/-- Evaluate the condition of an `if`, take three consecutive block identities and branch; the first
of the three is returned. -/
def branchToNewBlocks (cursor : Cursor) (condition : Expression) : Nat × Cursor :=
  let (atom, cursor) := atomize cursor condition
  let (atom, cursor) := booleanize cursor atom
  let (trueId, cursor) := cursor.reserveBlocks 3
  (trueId, cursor.branch atom trueId (trueId + 1))

/-- Prepare one loop region with a scoped pair of transfer targets. -/
def prepareLoopRegion (cursor : Cursor) (startId breakTarget continueTarget fallthroughTarget : Nat)
    (statements : Cursor → Cursor) : Cursor :=
  let entered :=
    { cursor with
      state := { cursor.state with
        loopTargets := (breakTarget, continueTarget) :: cursor.state.loopTargets } }
  let cursor := (statements (entered.openAt startId)).jumpIfOpen fallthroughTarget
  { cursor with
    state := { cursor.state with loopTargets := cursor.state.loopTargets.tail } }

/-- Prepare one branch of an `if`: it falls through to the join. -/
def prepareBranchRegion (cursor : Cursor) (startId joinId : Nat) (statements : Cursor → Cursor) :
    Cursor :=
  (statements (cursor.openAt startId)).jumpIfOpen joinId

/-- Continue in each join of a chain, from the innermost outwards: the end of an enclosing false branch
falls through to its own join. -/
def completeJoins (cursor : Cursor) : List Nat → Cursor
  | [] => cursor
  | join :: enclosing => completeJoins ((cursor.jumpIfOpen join).openAt join) enclosing

def prepareBinding (cursor : Cursor) (symbol : ResolvedName) (type : NativeType)
    (mutableBinding : Bool) (value : Expression) : Cursor :=
  let (operation, cursor) := atomizeOperation cursor value
  emitOperation cursor .bind symbol type mutableBinding operation

def prepareAssignment (cursor : Cursor) (destination : ResolvedName) (expression : Expression) :
    Cursor :=
  let (atom, cursor) := atomize cursor expression
  emitCopy cursor .assign destination expression.type false atom

/-- Only a call may be an instruction whose result is dropped. -/
def prepareEvaluation (cursor : Cursor) (expression : Expression) : Cursor :=
  match expression with
  | .apply callee operands type =>
      let (operation, cursor) := atomizeOperation cursor (.apply callee operands type)
      emitOperation cursor .evaluate noSymbol type false operation
  | expression => (atomize cursor expression).2

def prepareReturn (cursor : Cursor) (expression : Expression) : Cursor :=
  let (atom, cursor) := atomize cursor expression
  cursor.close (.ret atom)

/-- A `break` or `continue` jumps to the innermost targets. -/
def prepareTransfer (cursor : Cursor) (isBreak : Bool) : Cursor :=
  match cursor.state.loopTargets with
  | [] => cursor.close .unreachable
  | targets :: _ => cursor.jump (if isBreak then targets.1 else targets.2)

def prepareWhile (cursor : Cursor) (expression : Expression) (loopBody : Cursor → Cursor) : Cursor :=
  let (conditionId, cursor) := cursor.reserveBlocks 3
  let bodyId := conditionId + 1
  let exitId := bodyId + 1
  let cursor := (cursor.jump conditionId).openAt conditionId
  let cursor := branchOnCondition cursor expression bodyId exitId
  let cursor := prepareLoopRegion cursor bodyId exitId conditionId conditionId loopBody
  cursor.openAt exitId

def prepareDoWhile (cursor : Cursor) (loopBody : Cursor → Cursor) (expression : Expression) :
    Cursor :=
  let (bodyId, cursor) := cursor.reserveBlocks 3
  let conditionId := bodyId + 1
  let exitId := conditionId + 1
  let cursor := cursor.jump bodyId
  let cursor := prepareLoopRegion cursor bodyId exitId conditionId conditionId loopBody
  let cursor := branchOnCondition (cursor.openAt conditionId) expression bodyId exitId
  cursor.openAt exitId

def prepareFor (cursor : Cursor) (expression : Expression) (loopBody loopUpdate : Cursor → Cursor) :
    Cursor :=
  let (conditionId, cursor) := cursor.reserveBlocks 4
  let bodyId := conditionId + 1
  let updateId := bodyId + 1
  let exitId := updateId + 1
  let cursor := (cursor.jump conditionId).openAt conditionId
  let cursor := branchOnCondition cursor expression bodyId exitId
  let cursor := prepareLoopRegion cursor bodyId exitId updateId updateId loopBody
  let cursor := prepareLoopRegion cursor updateId exitId updateId conditionId loopUpdate
  cursor.openAt exitId

mutual

/-- Append structured statements to the open block. After a return, break or continue the remaining
statements are not lowered and the cursor is closed. -/
def prepareStatements (cursor : Cursor) : List Statement → Cursor
  | [] => cursor
  | .ret expression :: _ => prepareReturn cursor expression
  | .breakLoop :: _ => prepareTransfer cursor true
  | .continueLoop :: _ => prepareTransfer cursor false
  | statement :: remaining => prepareStatements (prepareStatement cursor statement) remaining

/-- Append one statement that does not end the region. -/
def prepareStatement (cursor : Cursor) : Statement → Cursor
  | .bind symbol type mutableBinding value => prepareBinding cursor symbol type mutableBinding value
  | .assign destination expression => prepareAssignment cursor destination expression
  | .evaluate expression => prepareEvaluation cursor expression
  | .whileLoop expression loopBody =>
      prepareWhile cursor expression (fun cursor => prepareStatements cursor loopBody)
  | .doWhile loopBody expression =>
      prepareDoWhile cursor (fun cursor => prepareStatements cursor loopBody) expression
  | .forLoop expression loopBody loopUpdate =>
      prepareFor cursor expression (fun cursor => prepareStatements cursor loopBody)
        (fun cursor => prepareStatements cursor loopUpdate)
  | .cond expression trueBranch falseBranch =>
      let (trueId, cursor) := branchToNewBlocks cursor expression
      let falseId := trueId + 1
      let joinId := falseId + 1
      let cursor := prepareBranchRegion cursor trueId joinId
        (fun cursor => prepareStatements cursor trueBranch)
      walkConditionalChain cursor falseId [joinId] falseBranch
  -- `prepareStatements` handles the transfers
  | .ret _ => cursor
  | .breakLoop => cursor
  | .continueLoop => cursor

/-- The false branch of a link, with the joins of the links passed. A branch that holds exactly one
nested `if` is the next link and starts in the false block; any other is the last region of the chain,
after which the joins are completed. -/
def walkConditionalChain (cursor : Cursor) (falseId : Nat) (joins : List Nat) :
    List Statement → Cursor
  | [.cond expression trueBranch falseBranch] =>
      let (trueId, cursor) := branchToNewBlocks (cursor.openAt falseId) expression
      let nextFalseId := trueId + 1
      let joinId := nextFalseId + 1
      let cursor := prepareBranchRegion cursor trueId joinId
        (fun cursor => prepareStatements cursor trueBranch)
      walkConditionalChain cursor nextFalseId (joinId :: joins) falseBranch
  | falseBranch =>
      let cursor := prepareBranchRegion cursor falseId (joins.headD 0)
        (fun cursor => prepareStatements cursor falseBranch)
      completeJoins (cursor.openAt (joins.headD 0)) joins.tail

end

/-! ## The symbol scan -/

/-- Push values in order: the last one is on top. -/
def pushAll {α : Type} (values stack : List α) : List α := values.reverse ++ stack

/-- The highest symbol among those an expression holds itself. -/
def Expression.highest (highest : Int) : Expression → Int
  | .var symbol _ => max highest symbol.resolvedSymbol
  | .closure captures parameters _ _ _ =>
      let withCaptures := captures.foldl
        (fun best capture => max best capture.symbol.resolvedSymbol) highest
      parameters.foldl (fun best parameter => max best parameter.1.resolvedSymbol) withCaptures
  | .letIn symbol _ _ _ _ => max highest symbol.resolvedSymbol
  | _ => highest

/-- The expressions nested in an expression, in the order they are pushed. -/
def Expression.nested : Expression → List Expression
  | .apply callee operands _ => callee :: operands
  | .primitive _ operands _ => operands
  | .conditional test whenTrue whenFalse _ => [test, whenTrue, whenFalse]
  | .closure captures _ _ _ _ => captures.map Capture.value
  | .letIn _ _ value body _ => [value, body]
  | _ => []

/-- The statements nested in an expression: the body of a closure. -/
def Expression.nestedStatements : Expression → List Statement
  | .closure _ _ _ body _ => body
  | _ => []

def Statement.highest (highest : Int) : Statement → Int
  | .bind symbol _ _ _ => max highest symbol.resolvedSymbol
  | .assign destination _ => max highest destination.resolvedSymbol
  | _ => highest

def Statement.nested : Statement → List Expression
  | .bind _ _ _ value => [value]
  | .assign _ expression => [expression]
  | .ret expression => [expression]
  | .cond expression _ _ => [expression]
  | .evaluate expression => [expression]
  | .whileLoop expression _ => [expression]
  | .doWhile _ expression => [expression]
  | .forLoop expression _ _ => [expression]
  | .breakLoop => []
  | .continueLoop => []

def Statement.nestedStatements : Statement → List Statement
  | .cond _ trueBranch falseBranch => trueBranch ++ falseBranch
  | .whileLoop _ loopBody => loopBody
  | .doWhile loopBody _ => loopBody
  | .forLoop _ loopBody loopUpdate => loopBody ++ loopUpdate
  | _ => []

/-- The total size of the values on a stack. -/
noncomputable def stackWeight {α : Type} [SizeOf α] (stack : List α) : Nat := (stack.map sizeOf).sum

theorem stackWeight_lt {α : Type} [SizeOf α] (stack : List α) : stackWeight stack < sizeOf stack := by
  induction stack with
  | nil => simp [stackWeight]
  | cons value rest ih =>
      simp only [stackWeight, List.map_cons, List.sum_cons, List.cons.sizeOf_spec] at *
      omega

theorem stackWeight_append {α : Type} [SizeOf α] (left right : List α) :
    stackWeight (left ++ right) = stackWeight left + stackWeight right := by
  simp [stackWeight]

theorem stackWeight_pushAll {α : Type} [SizeOf α] (values stack : List α) :
    stackWeight (pushAll values stack) = stackWeight values + stackWeight stack := by
  simp [stackWeight, pushAll]

theorem stackWeight_cons {α : Type} [SizeOf α] (value : α) (stack : List α) :
    stackWeight (value :: stack) = sizeOf value + stackWeight stack := by
  simp [stackWeight]

theorem stackWeight_captures (captures : List Capture) :
    stackWeight (captures.map Capture.value) < sizeOf captures := by
  induction captures with
  | nil => simp [stackWeight]
  | cons capture rest ih =>
      obtain ⟨_, _, _, value⟩ := capture
      simp only [List.map_cons, stackWeight_cons, List.cons.sizeOf_spec, Capture.value,
        Capture.capture.sizeOf_spec]
      omega

theorem Expression.nested_lt (expression : Expression) :
    stackWeight expression.nestedStatements + stackWeight expression.nested < sizeOf expression := by
  cases expression with
  | closure captures parameters returnType body type =>
      have := stackWeight_captures captures
      have := stackWeight_lt body
      simp only [nestedStatements, nested, closure.sizeOf_spec]
      omega
  | apply callee operands type =>
      have := stackWeight_lt operands
      simp only [nestedStatements, nested, apply.sizeOf_spec, stackWeight_cons]
      simp only [stackWeight, List.map_nil, List.sum_nil] at *
      omega
  | primitive primitive operands type =>
      have := stackWeight_lt operands
      simp only [nestedStatements, nested, Expression.primitive.sizeOf_spec]
      simp only [stackWeight, List.map_nil, List.sum_nil] at *
      omega
  | _ => simp [nestedStatements, nested, stackWeight]; try omega

theorem Statement.nested_lt (statement : Statement) :
    stackWeight statement.nestedStatements + stackWeight statement.nested < sizeOf statement := by
  cases statement with
  | cond expression trueBranch falseBranch =>
      have := stackWeight_lt trueBranch
      have := stackWeight_lt falseBranch
      simp only [nestedStatements, nested, cond.sizeOf_spec, stackWeight_append]
      simp only [stackWeight, List.map_cons, List.map_nil, List.sum_cons, List.sum_nil] at *
      omega
  | whileLoop expression loopBody =>
      have := stackWeight_lt loopBody
      simp only [nestedStatements, nested, whileLoop.sizeOf_spec]
      simp only [stackWeight, List.map_cons, List.map_nil, List.sum_cons, List.sum_nil] at *
      omega
  | doWhile loopBody expression =>
      have := stackWeight_lt loopBody
      simp only [nestedStatements, nested, doWhile.sizeOf_spec]
      simp only [stackWeight, List.map_cons, List.map_nil, List.sum_cons, List.sum_nil] at *
      omega
  | forLoop expression loopBody loopUpdate =>
      have := stackWeight_lt loopBody
      have := stackWeight_lt loopUpdate
      simp only [nestedStatements, nested, forLoop.sizeOf_spec, stackWeight_append]
      simp only [stackWeight, List.map_cons, List.map_nil, List.sum_cons, List.sum_nil] at *
      omega
  | _ => simp [nestedStatements, nested, stackWeight]; try omega

/-- Visit everything on the two stacks once, expressions first. -/
def scanSymbols : List Statement → List Expression → Int → Int
  | statements, expression :: expressions, highest =>
      scanSymbols (pushAll expression.nestedStatements statements)
        (pushAll expression.nested expressions) (expression.highest highest)
  | statement :: statements, [], highest =>
      scanSymbols (pushAll statement.nestedStatements statements) (pushAll statement.nested [])
        (statement.highest highest)
  | [], [], highest => highest
termination_by statements expressions _ => stackWeight statements + stackWeight expressions
decreasing_by
  · have := expression.nested_lt
    simp only [stackWeight_pushAll, stackWeight_cons]
    omega
  · have := statement.nested_lt
    simp only [stackWeight_pushAll, stackWeight_cons]
    omega

/-- The highest symbol identity a function mentions. -/
def highestFunctionSymbol (function : Function) : Int :=
  let highest := function.parameters.foldl
    (fun best parameter => max best parameter.1.resolvedSymbol) function.symbol.resolvedSymbol
  scanSymbols (pushAll function.body []) [] highest

/-! ## Functions and modules -/

/-- The prepared function, the functions lifted out of it, and the next symbol. -/
def prepareFunction (function : Function) (nextSymbol : Int) :
    PreparedFunction × List Function × Int :=
  let cursor := prepareStatements ⟨⟨nextSymbol, 1, [], []⟩, 0, [], [], true⟩ function.body
  let cursor :=
    if cursor.isOpen then
      if function.returnType.isUnit then
        cursor.close (.ret (.constant .monostate (.scalar .unit)))
      else cursor.close .unreachable
    else cursor
  (⟨function.symbol, function.parameters, function.returnType, 0, cursor.closed, ""⟩,
    cursor.state.pendingFunctions, cursor.state.nextSymbol)

/-- The work queue: every function is followed by the functions lifted out of it, which inherit its
source file. `none` when the steps do not suffice. -/
def prepareQueue : Nat → List (Function × String) → Int → Option (List PreparedFunction)
  | _, [], _ => some []
  | 0, _ :: _, _ => none
  | steps + 1, (function, sourceFile) :: pending, nextSymbol =>
      let (prepared, lifted, nextSymbol) := prepareFunction function nextSymbol
      (prepareQueue steps (pending ++ lifted.map fun function => (function, sourceFile))
          nextSymbol).map fun later => { prepared with sourceFile := sourceFile } :: later

/-- **The native adapter.** -/
def prepare (steps : Nat) (module : Module) : Option PreparedModule :=
  let nextSymbol :=
    module.functions.foldl (fun next function => max next (highestFunctionSymbol function + 1)) 1
  let pending := module.functions.map fun function => (function, function.sourceFile)
  (prepareQueue steps pending nextSymbol).map fun functions =>
    ⟨module.name, functions, module.sourceFiles⟩

end Tala.Native
