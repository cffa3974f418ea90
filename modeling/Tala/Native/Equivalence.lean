import Tala.Native.Agreement

/-!
# `Native.Equivalence` — the two adapters produce one CorePrep program

Statements, functions and the work queue in lock step, over the expressions of `Native.Agreement`. The
frontend hands every region its final terminator and lowers closures generation by generation; the
native cursor is finished afterwards and lowers closures from one queue. Both orders are first in,
first out (`prepareQueue_generation`), so the queue empties exactly when a generation lifts nothing.
-/

namespace Tala.Native

open Tala Tala.Core Tala.CorePrep

/-- End the open block, if there is one. -/
def Cursor.finish (cursor : Cursor) (terminator : Terminator) : Cursor :=
  if cursor.isOpen then cursor.close terminator else cursor

theorem jumpIfOpen_eq_finish (cursor : Cursor) (target : Nat) :
    cursor.jumpIfOpen target = cursor.finish (.jump target) := rfl

section Statements

variable {spelling : Spelling} {state : PrepState} {openBlock : OpenBlock} {closed : List Block}

/-- A native region that, finished with the terminator of a frontend region, builds its blocks. -/
def RegionAgrees (spelling : Spelling) (native : Cursor → Cursor) (region : RegionLowering) : Prop :=
  ∀ (ending : CorePrepTerminator) (state : PrepState) (openBlock : OpenBlock) (closed : List Block)
    (id : Nat),
    ((native (cursorOf spelling state openBlock closed)).finish (Terminator.ofPrep ending)).openAt id =
      cursorOf spelling (region ending state openBlock).2 ⟨id, []⟩
        (closed ++ (region ending state openBlock).1.map Block.ofPrep)

/-- A native statement that leaves a block open builds the blocks of a frontend one. -/
def BlocksAgree (spelling : Spelling) (native : Cursor → Cursor)
    (blocks : PrepState → OpenBlock → List CorePrepBlock × OpenBlock × PrepState) : Prop :=
  ∀ (state : PrepState) (openBlock : OpenBlock) (closed : List Block),
    native (cursorOf spelling state openBlock closed) =
      cursorOf spelling (blocks state openBlock).2.2 (blocks state openBlock).2.1
        (closed ++ (blocks state openBlock).1.map Block.ofPrep)

/-- What `continueWith` does before the rest: lower, then append the instruction. -/
def appending {α : Type} (lowering : Lowering α) (instruction : α → Option CorePrepInstruction)
    (state : PrepState) (openBlock : OpenBlock) : List CorePrepBlock × OpenBlock × PrepState :=
  let (closed, continued, result, after) := lowering state openBlock
  let appended := match instruction result with
    | some emitted => appendInstruction continued emitted
    | none => continued
  (closed, appended, after)

theorem continueWith_eq {α : Type} (lowering : Lowering α) (instruction : α → Option CorePrepInstruction)
    (remaining : PrepState → OpenBlock → List CorePrepBlock × PrepState) :
    continueWith lowering instruction remaining =
      continueAfter (appending lowering instruction) remaining := rfl

variable {native : Cursor → Cursor} {test : Expression} {condition : Lowering CorePrepAtom}
  {value : CoreExpression} {environment : Environment}

/-- A statement in front of a region. -/
theorem continueAfter_agrees {rest : Cursor → Cursor}
    {blocks : PrepState → OpenBlock → List CorePrepBlock × OpenBlock × PrepState}
    {remaining : RegionLowering} (hblocks : BlocksAgree spelling native blocks)
    (hrest : RegionAgrees spelling rest remaining) :
    RegionAgrees spelling (fun c => rest (native c))
      (fun ending => continueAfter blocks (remaining ending)) := by
  intro ending state openBlock closed id
  simp only [hblocks state openBlock closed, hrest ending _ _ _ id, continueAfter, List.map_append,
    List.append_assoc]

theorem finish_nil_agrees : RegionAgrees spelling (fun c => c) (prepareStatementsTo []) := by
  intro ending state openBlock closed id
  simp only [Cursor.finish, prepareStatementsTo]
  exact close_openAt_cursorOf ending id

/-- A statement that ends its region closes the open block itself. -/
theorem finish_close (cursor : Cursor) (ending terminator : Terminator) :
    (cursor.close terminator).finish ending = cursor.close terminator := rfl

theorem transfer_agrees (isBreak : Bool) :
    RegionAgrees spelling (fun c => prepareTransfer c isBreak)
      (fun _ state openBlock => closeLoopControl state openBlock isBreak) := by
  intro ending state openBlock closed id
  have htargets : (cursorOf spelling state openBlock closed).state.loopTargets =
      state.loopTargets := rfl
  simp only [prepareTransfer, closeLoopControl, htargets]
  cases state.loopTargets with
  | nil => exact close_openAt_cursorOf .corePrepUnreachable id
  | cons targets outer =>
      exact close_openAt_cursorOf (.corePrepJump (if isBreak then targets.1 else targets.2)) id

/-! ## Branches and loops -/

theorem branchOnCondition_cursorOf
    (htest : Agrees spelling Atom.ofPrep (fun c => atomize c test) condition) (trueId falseId : Nat) :
    branchOnCondition (cursorOf spelling state openBlock closed) test trueId falseId =
      let lowered := condition state openBlock
      let tested := booleanizeAtom lowered.2.2.2 lowered.2.1 lowered.2.2.1
      (cursorOf spelling tested.2.2 tested.1 (closed ++ lowered.1.map Block.ofPrep)).branch
        (Atom.ofPrep tested.2.1) trueId falseId := by
  have htest' := htest state openBlock closed
  simp only at htest'
  simp only [branchOnCondition, htest', resultOf, booleanize_cursorOf]

def Cursor.withLoopTargets (cursor : Cursor) (targets : List (Nat × Nat)) : Cursor :=
  { cursor with state := { cursor.state with loopTargets := targets } }

theorem openAt_withLoopTargets (cursor : Cursor) (targets : List (Nat × Nat)) (id : Nat) :
    (cursor.withLoopTargets targets).openAt id = (cursor.openAt id).withLoopTargets targets := rfl

theorem prepareLoopRegion_eq (cursor : Cursor) (start exit continued fallthrough : Nat)
    (native : Cursor → Cursor) :
    prepareLoopRegion cursor start exit continued fallthrough native =
      let finished := (native ((cursor.withLoopTargets
        ((exit, continued) :: cursor.state.loopTargets)).openAt start)).finish (.jump fallthrough)
      finished.withLoopTargets finished.state.loopTargets.tail := rfl

variable {cursor : Cursor} {region body : RegionLowering} {lifted : List Region}

/-- A loop region leaves the targets it was entered with. -/
theorem prepareLoopRegion_openAt (hregion : RegionAgrees spelling native region)
    (hlifts : RegionLifts lifted region) {start exit continued fallthrough : Nat}
    (hcursor : cursor.openAt start = cursorOf spelling state ⟨start, []⟩ closed) (id : Nat) :
    (prepareLoopRegion cursor start exit continued fallthrough native).openAt id =
      let entered := { state with loopTargets := (exit, continued) :: state.loopTargets }
      let lowered := region (.corePrepJump fallthrough) entered ⟨start, []⟩
      cursorOf spelling { lowered.2 with loopTargets := state.loopTargets } ⟨id, []⟩
        (closed ++ lowered.1.map Block.ofPrep) := by
  set entered : PrepState := { state with loopTargets := (exit, continued) :: state.loopTargets }
  have hopen : (cursor.withLoopTargets ((exit, continued) :: cursor.state.loopTargets)).openAt start =
      cursorOf spelling entered ⟨start, []⟩ closed := by
    rw [openAt_withLoopTargets, hcursor, show cursor.state = stateOf spelling state from
      congrArg Cursor.state hcursor]
    rfl
  have hlowered := hregion (.corePrepJump fallthrough) entered ⟨start, []⟩ closed id
  have htail : (region (.corePrepJump fallthrough) entered ⟨start, []⟩).2.loopTargets.tail =
      state.loopTargets := by
    rw [(hlifts (.corePrepJump fallthrough) entered ⟨start, []⟩).loopTargets]
    rfl
  rw [prepareLoopRegion_eq, hopen, openAt_withLoopTargets]
  have hstate := congrArg Cursor.state hlowered
  simp only [Cursor.openAt] at hstate
  simp only [Terminator.ofPrep] at hlowered hstate
  rw [hlowered, hstate]
  simp [Cursor.withLoopTargets, cursorOf, stateOf, htail]

theorem while_agrees {first second : List Region}
    (htest : Agrees spelling Atom.ofPrep (fun c => atomize c test) condition)
    (hbody : RegionAgrees spelling native body) (hcondition : Lifts first condition)
    (hlifts : RegionLifts second body) :
    BlocksAgree spelling (fun c => prepareWhile c test native)
      (CorePrep.prepareWhile condition body) := by
  intro state openBlock closed
  have htargets := fun s o => (hcondition s o).loopTargets
  simp only [prepareWhile, reserveBlocks_cursorOf, jump_openAt_cursorOf,
    branchOnCondition_cursorOf htest]
  rw [prepareLoopRegion_openAt hbody hlifts (branch_openAt_cursorOf _ _ _ _)]
  have hboolean := fun s o a => (booleanizeAtom_extends (Extends.refl s) o a).loopTargets
  simp only [CorePrep.prepareWhile, hboolean, htargets]
  simp [List.append_assoc, Nat.add_assoc]

/-- The native condition is lowered outside the targets of its loop, the frontend one inside. -/
theorem doWhile_agrees (htest : Agrees spelling Atom.ofPrep (fun c => atomize c test) condition)
    (hbody : RegionAgrees spelling native body) (hignores : IgnoresTargets condition)
    (hlifts : RegionLifts lifted body) :
    BlocksAgree spelling (fun c => prepareDoWhile c native test)
      (CorePrep.prepareDoWhile body condition) := by
  intro state openBlock closed
  simp only [prepareDoWhile, reserveBlocks_cursorOf]
  rw [prepareLoopRegion_openAt hbody hlifts (jump_openAt_cursorOf _ _),
    branchOnCondition_cursorOf htest, branch_openAt_cursorOf]
  have houtside := fun s o => hignores state.loopTargets s o
  have hboolean := fun s o a => booleanizeAtom_retarget state.loopTargets s o a
  simp only [PrepState.retarget] at houtside hboolean
  simp only [CorePrep.prepareDoWhile, houtside, hboolean]
  simp [List.append_assoc, Nat.add_assoc]

theorem for_agrees {nativeUpdate : Cursor → Cursor} {update : RegionLowering} {first second third : List Region}
    (htest : Agrees spelling Atom.ofPrep (fun c => atomize c test) condition)
    (hbody : RegionAgrees spelling native body) (hupdate : RegionAgrees spelling nativeUpdate update)
    (hcondition : Lifts first condition) (hlifts : RegionLifts second body)
    (hliftsUpdate : RegionLifts third update) :
    BlocksAgree spelling (fun c => prepareFor c test native nativeUpdate)
      (CorePrep.prepareFor condition body update) := by
  intro state openBlock closed
  have htargets := fun s o => (hcondition s o).loopTargets
  have hboolean := fun s o a => (booleanizeAtom_extends (Extends.refl s) o a).loopTargets
  simp only [prepareFor, reserveBlocks_cursorOf, jump_openAt_cursorOf,
    branchOnCondition_cursorOf htest]
  rw [prepareLoopRegion_openAt hupdate hliftsUpdate
    (prepareLoopRegion_openAt hbody hlifts (branch_openAt_cursorOf _ _ _ _) _)]
  simp only [CorePrep.prepareFor, hboolean, htargets]
  simp [List.append_assoc, Nat.add_assoc]

/-- A branch region starts in its block and is finished with a jump to the join. -/
theorem prepareBranchRegion_openAt (hregion : RegionAgrees spelling native region) {start join : Nat}
    (hcursor : cursor.openAt start = cursorOf spelling state ⟨start, []⟩ closed) (id : Nat) :
    (prepareBranchRegion cursor start join native).openAt id =
      let lowered := region (.corePrepJump join) state ⟨start, []⟩
      cursorOf spelling lowered.2 ⟨id, []⟩ (closed ++ lowered.1.map Block.ofPrep) := by
  rw [prepareBranchRegion, hcursor, jumpIfOpen_eq_finish]
  exact hregion (.corePrepJump join) state ⟨start, []⟩ closed id

theorem if_agrees {trueBranch falseBranch : List Statement} {whenTrue whenFalse : RegionLowering}
    (htest : Agrees spelling Atom.ofPrep (fun c => atomize c test) condition)
    (htrue : RegionAgrees spelling (fun c => prepareStatements c trueBranch) whenTrue)
    (hfalse : RegionAgrees spelling (fun c => prepareStatements c falseBranch) whenFalse) :
    BlocksAgree spelling (fun c => prepareStatement c (.cond test trueBranch falseBranch))
      (CorePrep.prepareIf condition whenTrue whenFalse) := by
  intro state openBlock closed
  have htest' := fun s o c => htest s o c
  simp only at htest'
  simp only [prepareStatement_cond, branchToNewBlocks, htest', resultOf, booleanize_cursorOf,
    reserveBlocks_cursorOf]
  rw [prepareBranchRegion_openAt hfalse
    (prepareBranchRegion_openAt htrue (branch_openAt_cursorOf _ _ _ _) _)]
  simp only [CorePrep.prepareIf]
  simp [List.append_assoc, Nat.add_assoc]

/-! ## Statements in lock step -/

theorem binding_agrees (name : ResolvedName) (valueType : Ty) («mutable» : Bool)
    (h : BothAgree spelling value) :
    BlocksAgree spelling
      (fun c => prepareBinding c name (NativeType.ofCore valueType) «mutable»
        (Expression.ofCore spelling value))
      (appending (CorePrep.atomizeOperation value)
        (fun operation => some (.corePrepBind name valueType «mutable» operation))) := by
  intro state openBlock closed
  have hvalue := h.2 state openBlock closed
  simp only at hvalue
  simp only [prepareBinding, hvalue, resultOf, emitOperation_bind, appending]

/-- The native type of an expression is the translation of its Core type. -/
theorem type_ofCore (expression : CoreExpression) :
    (Expression.ofCore spelling expression).type = NativeType.ofCore (expressionType expression) := by
  cases expression <;> simp only [Expression.ofCore, Expression.type, expressionType]

theorem assignment_agrees (name : ResolvedName) (hvalue : verifyExpression environment value = []) :
    BlocksAgree spelling (fun c => prepareAssignment c name (Expression.ofCore spelling value))
      (appending (CorePrep.atomize value) (fun atom => some (.corePrepAssign name atom))) := by
  intro state openBlock closed
  have hagrees := (expression_agrees spelling value hvalue).1 state openBlock closed
  simp only at hagrees
  simp only [prepareAssignment, hagrees, resultOf, type_ofCore, appending,
    emitCopy_assign (atomize_type value hvalue state openBlock)]

/-- The discarded call keeps the result type of its callee. -/
theorem evaluation_call_agrees {callee : CoreExpression} {arguments : List CoreExpression} {valueType : Ty}
    (hvalue : verifyExpression environment (.coreApply callee arguments valueType) = []) :
    BlocksAgree spelling
      (fun c => prepareEvaluation c
        (Expression.ofCore spelling (.coreApply callee arguments valueType)))
      (appending (CorePrep.atomizeOperation (.coreApply callee arguments valueType))
        (fun operation => some (.corePrepEvaluate operation))) := by
  intro state openBlock closed
  have hagrees := (expression_agrees spelling _ hvalue).2 state openBlock closed
  obtain ⟨-, hcallee, -, htype⟩ := verifyExpression_coreApply.mp hvalue
  have hdiscarded : discardedType (CorePrep.atomizeOperation
      (.coreApply callee arguments valueType) state openBlock).2.2.1 = NativeType.ofCore valueType := by
    simp only [CorePrep.atomizeOperation, prepareCall, discardedType,
      atomize_type callee hcallee state openBlock, htype]
  simp only [Expression.ofCore] at hagrees ⊢
  simp only [prepareEvaluation, hagrees, resultOf, appending, ← emit_cursorOf, Instruction.ofPrep,
    hdiscarded]
  rfl

theorem evaluation_atom_agrees
    (hvalue : verifyExpression environment value = []) (h : discardsItsOperation value = false) :
    BlocksAgree spelling (fun c => prepareEvaluation c (Expression.ofCore spelling value))
      (appending (CorePrep.atomize value) (fun _ => none)) := by
  intro state openBlock closed
  have hagrees := (expression_agrees spelling value hvalue).1 state openBlock closed
  simp only at hagrees
  have hnative : prepareEvaluation (cursorOf spelling state openBlock closed)
      (Expression.ofCore spelling value) =
      (atomize (cursorOf spelling state openBlock closed) (Expression.ofCore spelling value)).2 := by
    cases value <;> first | rfl | exact absurd h (by simp [discardsItsOperation])
  simp only [hnative, hagrees, resultOf, appending]

theorem return_agrees (hvalue : verifyExpression environment value = []) (remaining : RegionLowering) :
    RegionAgrees spelling (fun c => prepareReturn c (Expression.ofCore spelling value))
      (CorePrep.prepareStatement (.coreReturn value) remaining) := by
  intro ending state openBlock closed id
  have hagrees := (expression_agrees spelling value hvalue).1 state openBlock closed
  simp only at hagrees
  simp only [prepareReturn, hagrees, resultOf, finish_close, CorePrep.prepareStatement,
    List.map_append, ← List.append_assoc]
  exact close_openAt_cursorOf (.corePrepReturn _) id

mutual

/-- **Statements lower alike**: whatever agrees after a statement agrees with it in front. -/
theorem statement_agrees (spelling : Spelling) : ∀ (statement : CoreStatement)
    {environment : Environment} {returnType : Ty} {scope : TransferScope},
    verifyStatement environment returnType scope statement = [] →
    ∀ {rest : List CoreStatement},
      RegionAgrees spelling (fun c => prepareStatements c (Statement.ofCoreMany spelling rest))
        (prepareStatementsTo rest) →
      RegionAgrees spelling
        (fun c => prepareStatements c (Statement.ofCoreMany spelling (statement :: rest)))
        (prepareStatementsTo (statement :: rest))
  | .coreBind name type «mutable» value, _, _, _, h, rest, hrest => by
      obtain ⟨-, -, -, -, hvalue⟩ := verifyStatement_coreBind.mp h
      have := continueAfter_agrees
        (binding_agrees name type «mutable» (expression_agrees spelling value hvalue)) hrest
      simpa only [Statement.ofCoreMany, Statement.ofCore, prepareStatements,
        prepareStatement, prepareStatementsTo, CorePrep.prepareStatement, continueWith_eq] using this
  | .coreAssign name value, _, _, _, h, rest, hrest => by
      obtain ⟨-, hvalue, -⟩ := verifyStatement_coreAssign.mp h
      have := continueAfter_agrees (assignment_agrees name hvalue) hrest
      simpa only [Statement.ofCoreMany, Statement.ofCore, prepareStatements,
        prepareStatement, prepareStatementsTo, CorePrep.prepareStatement, continueWith_eq] using this
  | .coreEvaluate value, _, _, _, h, rest, hrest => by
      have hvalue := verifyStatement_coreEvaluate.mp h
      simp only [Statement.ofCoreMany, Statement.ofCore, prepareStatements,
        prepareStatement, prepareStatementsTo, CorePrep.prepareStatement, continueWith_eq]
      cases hd : discardsItsOperation value with
      | false =>
          simp only [Bool.false_eq_true, if_false]
          exact continueAfter_agrees (evaluation_atom_agrees hvalue hd) hrest
      | true =>
          obtain ⟨callee, arguments, valueType, rfl⟩ : ∃ callee arguments valueType,
              value = .coreApply callee arguments valueType := by
            cases value <;> simp [discardsItsOperation] at hd ⊢
          simp only [if_true]
          exact continueAfter_agrees (evaluation_call_agrees hvalue) hrest
  | .coreReturn value, _, _, _, h, rest, _ => by
      have hvalue := (verifyStatement_coreReturn.mp h).1
      have : RegionAgrees spelling _ _ :=
        return_agrees hvalue (fun e s o => prepareStatementsTo rest e s o)
      simpa only [Statement.ofCoreMany, Statement.ofCore, prepareStatements,
        prepareStatementsTo] using this
  | .coreIf condition whenTrue whenFalse, _, _, _, h, rest, hrest => by
      obtain ⟨hcondition, -, htrue, hfalse⟩ := verifyStatement_coreIf.mp h
      have := continueAfter_agrees (if_agrees (expression_agrees spelling condition hcondition).1
        (statements_agree spelling whenTrue htrue) (statements_agree spelling whenFalse hfalse)) hrest
      simpa only [Statement.ofCoreMany, Statement.ofCore, prepareStatements,
        prepareStatementsTo, CorePrep.prepareStatement] using this
  | .coreWhile condition body, _, _, _, h, rest, hrest => by
      obtain ⟨hcondition, -, hbody⟩ := verifyStatement_coreWhile.mp h
      have := continueAfter_agrees (while_agrees (expression_agrees spelling condition hcondition).1
        (statements_agree spelling body hbody) (expression_lifts condition).1
        (statements_lift body)) hrest
      simpa only [Statement.ofCoreMany, Statement.ofCore, prepareStatements,
        prepareStatement, prepareStatementsTo, CorePrep.prepareStatement] using this
  | .coreDoWhile body condition, _, _, _, h, rest, hrest => by
      obtain ⟨hbody, hcondition, -⟩ := verifyStatement_coreDoWhile.mp h
      have := continueAfter_agrees (doWhile_agrees (expression_agrees spelling condition hcondition).1
        (statements_agree spelling body hbody) (expression_ignores condition).1
        (statements_lift body)) hrest
      simpa only [Statement.ofCoreMany, Statement.ofCore, prepareStatements,
        prepareStatement, prepareStatementsTo, CorePrep.prepareStatement] using this
  | .coreFor condition body update, _, _, _, h, rest, hrest => by
      obtain ⟨hcondition, -, hbody, hupdate⟩ := verifyStatement_coreFor.mp h
      have := continueAfter_agrees (for_agrees (expression_agrees spelling condition hcondition).1
        (statements_agree spelling body hbody) (statements_agree spelling update hupdate)
        (expression_lifts condition).1 (statements_lift body) (statements_lift update)) hrest
      simpa only [Statement.ofCoreMany, Statement.ofCore, prepareStatements,
        prepareStatement, prepareStatementsTo, CorePrep.prepareStatement] using this
  | .coreBreak, _, _, _, _, rest, _ => by
      have : RegionAgrees spelling _ _ := transfer_agrees true
      simpa only [Statement.ofCoreMany, Statement.ofCore, prepareStatements,
        prepareStatementsTo, CorePrep.prepareStatement] using this
  | .coreContinue, _, _, _, _, rest, _ => by
      have : RegionAgrees spelling _ _ := transfer_agrees false
      simpa only [Statement.ofCoreMany, Statement.ofCore, prepareStatements,
        prepareStatementsTo, CorePrep.prepareStatement] using this

/-- **Statement lists lower alike**, whatever ends the last block. -/
theorem statements_agree (spelling : Spelling) : ∀ (statements : List CoreStatement)
    {environment : Environment} {returnType : Ty} {scope : TransferScope},
    verifyStatements environment returnType scope statements = [] →
    RegionAgrees spelling (fun c => prepareStatements c (Statement.ofCoreMany spelling statements))
      (prepareStatementsTo statements)
  | [], _, _, _, _ => by
      simpa only [Statement.ofCoreMany, prepareStatements] using finish_nil_agrees
  | statement :: rest, _, _, _, h => by
      obtain ⟨hstatement, hrest⟩ := verifyStatements_cons.mp h
      exact statement_agrees spelling statement hstatement (statements_agree spelling rest hrest)

end

end Statements

/-! ## Functions and the work queue -/

section Queue

variable (spelling : Spelling)

/-- A waiting function in the native queue. -/
def queued (spelling : Spelling) (work : CoreFunction × String) : Function × String :=
  (Function.ofCore spelling (work.1, ""), work.2)

/-- **An accepted function is prepared alike**, in a fresh state with the same symbol counter. -/
theorem prepareFunction_agrees {function : CoreFunction} (h : (regionOf function).Accepted)
    (state : PrepState) (hpending : state.pendingFunctions = []) (hblock : state.nextBlock = 1) :
    let lowered := CorePrep.prepareFunction state function
    prepareFunction (Function.ofCore spelling (function, "")) state.nextTemporary =
      ({ PreparedFunction.ofPrep lowered.1 with sourceFile := "" },
        lowered.2.pendingFunctions.map (fun p => Function.ofCore spelling (p.1, "")),
        lowered.2.nextTemporary) := by
  obtain ⟨hresolved, environment, scope, hbody⟩ := h
  have hreturn : function.coreFunctionReturnType ≠ .errorType := resolvedType_ne_errorType hresolved
  have hstart : (⟨⟨state.nextTemporary, 1, [], []⟩, 0, [], [], true⟩ : Cursor) =
      cursorOf spelling { state with loopTargets := [] } ⟨0, []⟩ [] := by
    simp [cursorOf, stateOf, hpending, hblock]
  have hregion := statements_agree spelling function.coreFunctionBody hbody (fallingOff function)
    { state with loopTargets := [] } ⟨0, []⟩ [] 0
  have hfinish : ∀ cursor : Cursor,
      (if cursor.isOpen then
        if (NativeType.ofCore function.coreFunctionReturnType).isUnit then
          cursor.close (.ret (.constant .monostate (.scalar .unit)))
        else cursor.close .unreachable
      else cursor) = cursor.finish (Terminator.ofPrep (fallingOff function)) := by
    intro cursor
    rw [isUnit_ofCore hreturn, Cursor.finish, fallingOff]
    by_cases hunit : function.coreFunctionReturnType = unitType
    · simp only [hunit, decide_true, if_true]; rfl
    · simp only [hunit, decide_false, Bool.false_eq_true, if_false]; rfl
  have hstate := congrArg Cursor.state hregion
  have hclosed := congrArg Cursor.closed hregion
  simp only [Cursor.openAt, cursorOf, stateOf, List.nil_append] at hstate hclosed
  simp only [prepareFunction, Function.ofCore, hstart, hfinish, CorePrep.prepareFunction]
  simp only [cursorOf, stateOf] at hstate hclosed ⊢
  rw [hstate, hclosed]
  rfl

/-- **One generation of the frontend is a run through the native queue**: its functions come out in
order, and what they lift waits behind everything already queued. -/
theorem prepareQueue_generation : ∀ (work : List (CoreFunction × String)) (state : PrepState)
    (steps : Nat) (later : List (Function × String)), state.pendingFunctions = [] →
    (∀ p ∈ work, (regionOf p.1).Accepted) →
    prepareQueue (work.length + steps) (work.map (queued spelling) ++ later) state.nextTemporary =
      let lowered := prepareGeneration state work
      (prepareQueue steps (later ++ lowered.2.1.map (queued spelling)) lowered.2.2.nextTemporary).map
        (lowered.1.map PreparedFunction.ofPrep ++ ·)
  | [], state, steps, later, _, _ => by
      simp [prepareGeneration]
  | (function, sourceFile) :: remaining, state, steps, later, hpending, haccepted => by
      set entered : PrepState := { state with nextBlock := 1, currentSourceFile := sourceFile }
      have hprepared := prepareFunction_agrees spelling (haccepted _ (List.mem_cons_self ..)) entered
        hpending rfl
      -- whatever the function lifts inherits its source file
      have hlifted : (CorePrep.prepareFunction entered function).2.pendingFunctions.map
            (fun p => (Function.ofCore spelling (p.1, ""), sourceFile)) =
          (CorePrep.prepareFunction entered function).2.pendingFunctions.map (queued spelling) := by
        obtain ⟨lifted, hlifted, -, hfile⟩ := (prepareFunction_lifts entered function).pending
        have hlifted' : (CorePrep.prepareFunction entered function).2.pendingFunctions = lifted := by
          simpa [entered, hpending] using hlifted
        rw [hlifted']
        refine List.map_congr_left fun p hp => ?_
        rw [queued, hfile p hp]
      have hfirst : { PreparedFunction.ofPrep (CorePrep.prepareFunction entered function).1 with
          sourceFile := sourceFile } =
            PreparedFunction.ofPrep (CorePrep.prepareFunction entered function).1 := rfl
      have ih := prepareQueue_generation remaining
        { (CorePrep.prepareFunction entered function).2 with pendingFunctions := [] } steps
        (later ++ (CorePrep.prepareFunction entered function).2.pendingFunctions.map (queued spelling))
        rfl (fun p hp => haccepted p (List.mem_cons_of_mem _ hp))
      simp only [List.length_cons, List.map_cons, List.cons_append, queued,
        Nat.add_right_comm _ 1 steps, prepareQueue]
      rw [show state.nextTemporary = entered.nextTemporary from rfl, hprepared]
      simp only [List.map_map, Function.comp_def, hlifted, List.append_assoc, ih, prepareGeneration,
        List.map_append, Option.map_map, List.map_cons, List.cons_append]
      rfl

theorem prepareGeneration_length (work : List (CoreFunction × String)) :
    ∀ state : PrepState, (prepareGeneration state work).1.length = work.length := by
  induction work with
  | nil => intro _; rfl
  | cons p work ih => intro _; simp only [prepareGeneration, List.length_cons, ih]

/-- Generation after generation: the queue takes one step for each function it prepares. -/
theorem prepareQueue_generations : ∀ (bound : Nat) (state : PrepState)
    (work : List (CoreFunction × String)) {functions : List CorePrepFunction} {final : PrepState}
    (_ : prepareGenerations bound state work = some (functions, final)) (extra : Nat),
    state.pendingFunctions = [] → (∀ p ∈ work, (regionOf p.1).Accepted) →
    prepareQueue (functions.length + extra) (work.map (queued spelling)) state.nextTemporary =
      some (functions.map PreparedFunction.ofPrep)
  | bound, state, [], functions, final, h, extra, _, _ => by
      rw [prepareGenerations] at h
      cases h
      rw [List.map_nil, prepareQueue]
      rfl
  | 0, _, _ :: _, _, _, h, _, _, _ => by rw [prepareGenerations] at h; cases h
  | bound + 1, state, first :: rest, functions, final, h, extra, hpending, haccepted => by
      rw [prepareGenerations_succ] at h
      obtain ⟨later, hlater, heq⟩ := Option.map_eq_some_iff.mp h
      obtain ⟨rfl, -⟩ := Prod.mk.inj heq
      obtain ⟨hlifted, hempty⟩ := prepareGeneration_lifts (first :: rest) state hpending
      have haccepted' : ∀ p ∈ (prepareGeneration state (first :: rest)).2.1,
          (regionOf p.1).Accepted := by
        intro p hp
        refine liftedRegions_accepted ((first :: rest).map fun p => regionOf p.1) ?_ _
          (hlifted ▸ List.mem_map_of_mem (f := fun p => regionOf p.1) hp)
        intro region hr
        obtain ⟨q, hq, rfl⟩ := List.mem_map.mp hr
        exact haccepted q hq
      have ih := prepareQueue_generations bound _ _ hlater extra hempty haccepted'
      have hgeneration := prepareQueue_generation spelling (first :: rest) state
        (later.1.length + extra) [] hpending haccepted
      rw [List.append_nil] at hgeneration
      rw [List.length_append, prepareGeneration_length, Nat.add_assoc, hgeneration]
      simp only [List.nil_append, ih, Option.map_some, List.map_append]

/-- A function waits with its source file; the one inside it is not read. -/
theorem prepareQueue_source : ∀ (steps : Nat) (work : List (CoreFunction × String))
    (later : List (Function × String)) (next : Int),
    prepareQueue steps (work.map (fun p => (Function.ofCore spelling p, p.2)) ++ later) next =
      prepareQueue steps (work.map (queued spelling) ++ later) next
  | _, [], _, _ => rfl
  | 0, _ :: _, _, _ => rfl
  | steps + 1, p :: work, later, next => by
      have hprepare : prepareFunction (Function.ofCore spelling p) next =
          prepareFunction (queued spelling p).1 next := rfl
      have hsource : (queued spelling p).2 = p.2 := rfl
      simp only [List.map_cons, List.cons_append, prepareQueue, hprepare, hsource, List.append_assoc,
        prepareQueue_source steps work]

theorem foldl_max_functions (functions : List (CoreFunction × String))
    (h : ∀ p ∈ functions, 0 ≤ p.1.symbol) : ∀ {next : Int}, 1 ≤ next →
    (functions.map (Function.ofCore spelling)).foldl
        (fun next function => max next (highestFunctionSymbol function + 1)) next =
      max next (maximumSymbol ((functions.map Prod.fst).flatMap coreFunctionSymbols) + 1) := by
  induction functions with
  | nil => intro next hnext; simp only [List.map_nil, List.foldl_nil, List.flatMap_nil,
      maximumSymbol_nil]; omega
  | cons p rest ih =>
      intro next hnext
      have hsymbol := highestFunctionSymbol_ofCore spelling p.1 p.2
        (h p (List.mem_cons_self ..))
      rw [List.map_cons, List.foldl_cons, hsymbol, ih (fun q hq => h q (List.mem_cons_of_mem _ hq))
        (by omega), List.map_cons, List.flatMap_cons, maximumSymbol_append]
      omega

/-- **Both adapters start their fresh symbols at the same frontier.** -/
theorem seed_eq {moduleValue : CoreModule}
    (h : ∀ function ∈ moduleValue.coreModuleFunctions, 0 ≤ function.symbol) :
    (Module.ofCore spelling moduleValue).functions.foldl
        (fun next function => max next (highestFunctionSymbol function + 1)) 1 =
      nextCoreSymbolValue moduleValue := by
  have hfunctions : (sourceOwned moduleValue).map Prod.fst = moduleValue.coreModuleFunctions := by
    simp [sourceOwned, Function.comp_def]
  have hpositive := nextCoreSymbolValue_pos moduleValue
  rw [Module.ofCore, foldl_max_functions _ _ _ (le_refl 1), hfunctions]
  · rw [nextCoreSymbolValue, maximumCoreSymbolValue, coreModuleSymbols] at hpositive ⊢
    omega
  · intro p hp
    obtain ⟨function, hf, rfl⟩ := List.mem_map.mp hp
    exact h function hf

end Queue

/-- `check(x) = let f = (y) => x < y; f(7) && x`, with a capturing closure and a short circuit. -/
def closureModule : CoreModule :=
  let x : ResolvedName := ⟨2, "x"⟩
  let f : ResolvedName := ⟨3, "f"⟩
  let captured : ResolvedName := ⟨4, "x"⟩
  let y : ResolvedName := ⟨5, "y"⟩
  let predicate : Ty := .functionType [intType] boolType
  let closure : CoreExpression := .coreClosure
    [.coreCapture .strongCapture captured intType (.coreVariable x intType)] [(y, intType)] boolType
    [.coreReturn (.corePrimitive .coreLessThan
      [.coreVariable captured intType, .coreVariable y intType] boolType)] predicate
  ⟨["Example"],
    [⟨⟨1, "check"⟩, [(x, intType)], boolType,
      [.coreBind f predicate false closure,
        .coreReturn (.corePrimitive .coreLogicalAnd
          [.coreApply (.coreVariable f predicate) [.coreLiteral (.coreInteger 7) intType] boolType,
            .coreVariable x intType] boolType)]⟩],
    [], []⟩

end Tala.Native
