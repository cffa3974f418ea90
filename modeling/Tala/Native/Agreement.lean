import Tala.Native.Walks
import Tala.CorePrep.LoweringFacts

/-!
# `Native.Agreement` — both lowerings build the same program

Against the plain-recursion equations of `Native.Walks` the two lowerings advance in lock step:
`cursorOf` is the native cursor that holds a frontend state and open block, and each native step on it
yields the cursor of the frontend step.

The verifier is needed for one thing: the native assignment and discard instructions carry the
type of the expression, the frontend ones the type of the atom (`atomize_type` makes them one).
-/

namespace Tala.Native

open Tala Tala.Core Tala.CorePrep

/-! ## Cursors of frontend states -/

section Cursors

variable (spelling : Spelling)

/-- The native counters and stacks of a frontend state. A lifted function gets its source file when it
is queued. -/
def stateOf (state : PrepState) : State :=
  ⟨state.nextTemporary, state.nextBlock,
    state.pendingFunctions.map (fun pending => Function.ofCore spelling (pending.1, "")),
    state.loopTargets⟩

/-- The native cursor that holds a frontend state, an open block and the blocks finished so far. -/
def cursorOf (state : PrepState) (openBlock : OpenBlock) (closed : List Block) : Cursor :=
  ⟨stateOf spelling state, openBlock.openBlockId,
    openBlock.openBlockInstructions.reverse.map Instruction.ofPrep, closed, true⟩

/-- What a frontend lowering returns, as a native result: the value and the cursor it leaves. -/
def resultOf {α β : Type} (convert : α → β) (closed : List Block)
    (lowered : List CorePrepBlock × OpenBlock × α × PrepState) : β × Cursor :=
  (convert lowered.2.2.1,
    cursorOf spelling lowered.2.2.2 lowered.2.1 (closed ++ lowered.1.map Block.ofPrep))

variable {spelling} {state : PrepState} {openBlock : OpenBlock} {closed : List Block}

theorem emit_cursorOf (instruction : CorePrepInstruction) :
    (cursorOf spelling state openBlock closed).emit (Instruction.ofPrep instruction) =
      cursorOf spelling state (appendInstruction openBlock instruction) closed := by
  simp [Cursor.emit, cursorOf, appendInstruction]

/-- Closing a block and opening the next one. -/
theorem close_openAt_cursorOf (terminator : CorePrepTerminator) (id : Nat) :
    ((cursorOf spelling state openBlock closed).close (Terminator.ofPrep terminator)).openAt id =
      cursorOf spelling state ⟨id, []⟩
        (closed ++ [Block.ofPrep (closeBlock openBlock terminator)]) := by
  simp [Cursor.close, Cursor.openAt, cursorOf, closeBlock, Block.ofPrep]

theorem temporary_cursorOf (purpose : String) :
    (cursorOf spelling state openBlock closed).temporary purpose =
      (generatedName purpose state.nextTemporary,
        cursorOf spelling { state with nextTemporary := state.nextTemporary + 1 } openBlock closed) :=
  rfl

theorem reserveBlocks_cursorOf (count : Nat) :
    (cursorOf spelling state openBlock closed).reserveBlocks count =
      (state.nextBlock,
        cursorOf spelling { state with nextBlock := state.nextBlock + count } openBlock closed) :=
  rfl

theorem type_ofPrep (atom : CorePrepAtom) :
    (Atom.ofPrep atom).type = NativeType.ofCore (corePrepAtomType atom) := by
  cases atom <;> rfl

theorem boolean_eq : NativeType.boolean = NativeType.ofCore boolType := rfl

theorem zeroForBooleanContext_ofCore (valueType : Ty) :
    zeroForBooleanContext (NativeType.ofCore valueType) = Atom.ofPrep (zeroAtom valueType) := by
  rw [zeroForBooleanContext, zeroAtom, isFloating_ofCore]
  cases isCoreFloatingType valueType <;> rfl

theorem neutralValue_ofCore (valueType : Ty) :
    neutralValue (NativeType.ofCore valueType) = Atom.ofPrep (neutralAtom valueType) := by
  rw [neutralValue, neutralAtom, isBoolean_ofCore, zeroForBooleanContext_ofCore]
  by_cases h : valueType = boolType
  · subst h; rfl
  · simp [h]

theorem booleanize_cursorOf (atom : CorePrepAtom) :
    booleanize (cursorOf spelling state openBlock closed) (Atom.ofPrep atom) =
      let lowered := booleanizeAtom state openBlock atom
      (Atom.ofPrep lowered.2.1, cursorOf spelling lowered.2.2 lowered.1 closed) := by
  rw [booleanize, booleanizeAtom, type_ofPrep, isBoolean_ofCore]
  by_cases h : corePrepAtomType atom = boolType
  · simp [h]
  · simp only [h, decide_false, Bool.false_eq_true, if_false, temporary_cursorOf, ← emit_cursorOf,
      zeroForBooleanContext_ofCore]
    rfl

theorem booleanizeAll_cursorOf (atoms : List CorePrepAtom) :
    ∀ {state : PrepState} {openBlock : OpenBlock},
      booleanizeAll (cursorOf spelling state openBlock closed) (atoms.map Atom.ofPrep) =
        let lowered := booleanizeMany state openBlock atoms
        (lowered.2.1.map Atom.ofPrep, cursorOf spelling lowered.2.2 lowered.1 closed) := by
  induction atoms with
  | nil => intro state openBlock; rfl
  | cons atom remaining ih =>
      intro state openBlock
      simp only [List.map_cons, booleanizeAll, booleanizeMany, booleanize_cursorOf, ih]

/-- The result of an operation, as the fields of a native instruction. -/
def operationResultOf (operation : CorePrepOperation) : OperationResult :=
  let fields := operationOfPrep operation
  ⟨fields.1, fields.2.1, fields.2.2.1, fields.2.2.2⟩

theorem emitOperation_bind (name : ResolvedName) (valueType : Ty) («mutable» : Bool)
    (operation : CorePrepOperation) :
    emitOperation (cursorOf spelling state openBlock closed) .bind name
        (NativeType.ofCore valueType) «mutable» (operationResultOf operation) =
      cursorOf spelling state
        (appendInstruction openBlock (.corePrepBind name valueType «mutable» operation)) closed := by
  rw [← emit_cursorOf]; rfl

theorem emitCopy_bind (name : ResolvedName) (valueType : Ty) («mutable» : Bool) (atom : CorePrepAtom) :
    emitCopy (cursorOf spelling state openBlock closed) .bind name
        (NativeType.ofCore valueType) «mutable» (Atom.ofPrep atom) =
      cursorOf spelling state
        (appendInstruction openBlock (.corePrepBind name valueType «mutable» (.corePrepCopy atom)))
        closed := by
  rw [← emit_cursorOf]; rfl

theorem emitCopy_assign {name : ResolvedName} {valueType : Ty} {atom : CorePrepAtom}
    (htype : corePrepAtomType atom = valueType) :
    emitCopy (cursorOf spelling state openBlock closed) .assign name
        (NativeType.ofCore valueType) false (Atom.ofPrep atom) =
      cursorOf spelling state (appendInstruction openBlock (.corePrepAssign name atom)) closed := by
  rw [← emit_cursorOf, ← htype]; rfl

theorem lowerLiteral_ofCore (literal : CoreLiteral) (valueType : Ty) :
    lowerLiteral (Literal.ofCore spelling literal) (NativeType.ofCore valueType) =
      Atom.ofPrep (.corePrepLiteral literal valueType) := by
  cases literal with
  | coreInteger value =>
      have h := spelling.spells value
      simp only [Literal.ofCore, Atom.ofPrep, Spelling.canonical]
      cases hp : spelling.payload value with
      | int64 v => rw [hp] at h; cases h; rfl
      | int32 v => rw [hp] at h; cases h; rfl
      | integer v => rw [hp] at h; cases h; rfl
      | _ => rw [hp] at h; cases h
  | _ => rfl

theorem bindTemporary_resultOf (valueType : Ty) (lowering : Lowering CorePrepOperation) :
    bindTemporary (resultOf spelling operationResultOf closed (lowering state openBlock)).2
        (NativeType.ofCore valueType)
        (resultOf spelling operationResultOf closed (lowering state openBlock)).1 =
      resultOf spelling Atom.ofPrep closed
        (CorePrep.bindTemporary valueType lowering state openBlock) := by
  simp only [bindTemporary, CorePrep.bindTemporary, resultOf, temporary_cursorOf,
    emitOperation_bind]
  rfl

end Cursors

/-! ## Expressions in lock step -/

section LockStep

variable {spelling : Spelling} {state : PrepState} {openBlock : OpenBlock} {closed : List Block}

/-- `convert` of what a lowering returns, on every cursor of a frontend state. -/
def Agrees {α β : Type} (spelling : Spelling) (convert : α → β) (native : Cursor → β × Cursor)
    (lowering : Lowering α) : Prop :=
  ∀ (state : PrepState) (openBlock : OpenBlock) (closed : List Block),
    native (cursorOf spelling state openBlock closed) =
      resultOf spelling convert closed (lowering state openBlock)

theorem constant_boolean (value : Bool) :
    Atom.constant (.boolean value) (NativeType.ofCore boolType) =
      Atom.ofPrep (.corePrepLiteral (.coreBoolean value) boolType) := rfl

theorem branch_openAt_cursorOf (condition : CorePrepAtom) (whenTrue whenFalse id : Nat) :
    ((cursorOf spelling state openBlock closed).branch (Atom.ofPrep condition) whenTrue
        whenFalse).openAt id =
      cursorOf spelling state ⟨id, []⟩ (closed ++
        [Block.ofPrep (closeBlock openBlock (.corePrepBranch condition whenTrue whenFalse))]) :=
  close_openAt_cursorOf (.corePrepBranch condition whenTrue whenFalse) id

theorem jump_openAt_cursorOf (target id : Nat) :
    ((cursorOf spelling state openBlock closed).jump target).openAt id =
      cursorOf spelling state ⟨id, []⟩
        (closed ++ [Block.ofPrep (closeBlock openBlock (.corePrepJump target))]) :=
  close_openAt_cursorOf (.corePrepJump target) id

variable {primitive : CorePrimitive} {expression : CoreExpression}

theorem finishShortCircuit_agrees (h : isShortCircuit primitive = true)
    {left right : Lowering CorePrepAtom} {rightOperand : Expression}
    (hright : Agrees spelling Atom.ofPrep (fun c => atomize c rightOperand) right) :
    finishShortCircuit (resultOf spelling Atom.ofPrep closed (left state openBlock)).2 primitive
        (resultOf spelling Atom.ofPrep closed (left state openBlock)).1 rightOperand =
      resultOf spelling Atom.ofPrep closed
        (atomizeShortCircuit primitive left right state openBlock) := by
  have hright' := fun s o c => hright s o c
  simp only at hright'
  have hcases : primitive = .coreLogicalAnd ∨ primitive = .coreLogicalOr := by
    simpa [isShortCircuit] using h
  rw [finishShortCircuit, atomizeShortCircuit]
  simp only [resultOf, booleanize_cursorOf, temporary_cursorOf, boolean_eq, constant_boolean,
    emitCopy_bind, reserveBlocks_cursorOf]
  rcases hcases with rfl | rfl
  all_goals
    simp only [reduceCtorEq, decide_true, decide_false, if_true, if_false, Bool.false_eq_true,
      branch_openAt_cursorOf, hright', resultOf, booleanize_cursorOf,
      emitCopy_assign (booleanizeAtom_type _ _ _), jump_openAt_cursorOf]
    simp [Atom.ofPrep, List.append_assoc]

theorem conditional_agrees {test whenTrue whenFalse : Expression} (valueType : Ty)
    {condition trueArm falseArm : Lowering CorePrepAtom}
    (htest : Agrees spelling Atom.ofPrep (fun c => atomize c test) condition)
    (htrue : Agrees spelling Atom.ofPrep (fun c => atomize c whenTrue) trueArm)
    (hfalse : Agrees spelling Atom.ofPrep (fun c => atomize c whenFalse) falseArm)
    (htrueType : ∀ s o, corePrepAtomType (trueArm s o).2.2.1 = valueType)
    (hfalseType : ∀ s o, corePrepAtomType (falseArm s o).2.2.1 = valueType) :
    Agrees spelling Atom.ofPrep
      (fun c => atomize c (.conditional test whenTrue whenFalse (NativeType.ofCore valueType)))
      (CorePrep.atomizeConditional condition trueArm falseArm valueType) := by
  have htest' := fun s o c => htest s o c
  have htrue' := fun s o c => htrue s o c
  have hfalse' := fun s o c => hfalse s o c
  simp only at htest' htrue' hfalse'
  intro state openBlock closed
  simp only [atomize_conditional, beginConditional, endConditional, htest', htrue', hfalse', resultOf,
    booleanize_cursorOf, temporary_cursorOf, neutralValue_ofCore, emitCopy_bind,
    reserveBlocks_cursorOf, branch_openAt_cursorOf, emitCopy_assign (htrueType _ _),
    emitCopy_assign (hfalseType _ _), jump_openAt_cursorOf, atomizeConditional, prepareArm]
  simp [Atom.ofPrep, List.append_assoc]

theorem let_agrees (name : ResolvedName) (bindingType : Ty) (type : NativeType)
    {value body : Expression} {boundValue : Lowering CorePrepOperation} {lowering : Lowering CorePrepAtom}
    (hvalue : Agrees spelling operationResultOf (fun c => atomizeOperation c value) boundValue)
    (hbody : Agrees spelling Atom.ofPrep (fun c => atomize c body) lowering) :
    Agrees spelling Atom.ofPrep
      (fun c => atomize c (.letIn name (NativeType.ofCore bindingType) value body type))
      (atomizeLet name bindingType boundValue lowering) := by
  have hvalue' := fun s o c => hvalue s o c
  have hbody' := fun s o c => hbody s o c
  simp only at hvalue' hbody'
  intro state openBlock closed
  simp only [atomize, bindLet, hvalue', resultOf, emitOperation_bind, hbody', atomizeLet]
  simp [List.append_assoc]

theorem call_agrees {callee : Expression} {operands : List Expression}
    {lowerCallee : Lowering CorePrepAtom} {lowerArguments : Lowering (List CorePrepAtom)}
    (hcallee : Agrees spelling Atom.ofPrep (fun c => atomize c callee) lowerCallee)
    (hoperands : Agrees spelling (List.map Atom.ofPrep) (fun c => atomizeAll c operands)
      lowerArguments) :
    Agrees spelling operationResultOf (fun c => callOperation c callee operands)
      (prepareCall lowerCallee lowerArguments) := by
  have hcallee' := fun s o c => hcallee s o c
  have hoperands' := fun s o c => hoperands s o c
  simp only at hcallee' hoperands'
  intro state openBlock closed
  simp only [callOperation, hcallee', resultOf, hoperands', prepareCall]
  simp [List.append_assoc, operationResultOf, operationOfPrep]

theorem hidden_ofCoreMany (captures : List CoreCapture) :
    (Capture.ofCoreMany spelling captures).map (fun capture => (capture.symbol, capture.type)) =
      (captures.map fun c => (c.coreCaptureName, c.coreCaptureType)).map Parameter.ofCore := by
  induction captures with
  | nil => simp [Capture.ofCoreMany]
  | cons c cs ih =>
      obtain ⟨mode, name, type, value⟩ := c
      simp only [Capture.ofCoreMany, List.map_cons, ih]
      rfl

theorem closure_agrees {captures : List CoreCapture} (parameters : List (ResolvedName × Ty))
    (returnType : Ty) (body : List CoreStatement) {values : Lowering (List CorePrepCapture)}
    (hcaptures : Agrees spelling (List.map PreparedCapture.ofPrep)
      (fun c => atomizeCaptures c (Capture.ofCoreMany spelling captures)) values) :
    Agrees spelling operationResultOf
      (fun c => closureOperation c (Capture.ofCoreMany spelling captures)
        (parameters.map Parameter.ofCore) (NativeType.ofCore returnType)
        (Statement.ofCoreMany spelling body))
      (prepareClosure captures parameters returnType body values) := by
  have hcaptures' := fun s o c => hcaptures s o c
  simp only at hcaptures'
  intro state openBlock closed
  simp only [closureOperation, temporary_cursorOf, hcaptures', resultOf, prepareClosure,
    hidden_ofCoreMany]
  simp [operationResultOf, operationOfPrep, cursorOf, stateOf, Function.ofCore, liftedFunction]

theorem primitive_agrees (primitive : CorePrimitive) {first : Expression}
    {remaining : List Expression} (type : NativeType) {lowerFirst : Lowering CorePrepAtom}
    {lowerRemaining : Lowering (List CorePrepAtom)} {lowerAll : Lowering (List CorePrepAtom)}
    (hfirst : Agrees spelling Atom.ofPrep (fun c => atomize c first) lowerFirst)
    (hremaining : Agrees spelling (List.map Atom.ofPrep) (fun c => atomizeAll c remaining)
      lowerRemaining) (hall : ∀ s o, lowerAll s o =
      let (closed, continued, atom, after) := lowerFirst s o
      let (laterBlocks, finalOpen, atoms, final) := lowerRemaining after continued
      (closed ++ laterBlocks, finalOpen, atom :: atoms, final)) :
    Agrees spelling operationResultOf
      (fun c => primitiveOperation (atomize c first).2 ⟨primitive, remaining, type⟩
        (atomize c first).1)
      (preparePrimitive primitive lowerAll) := by
  have hfirst' := fun s o c => hfirst s o c
  have hremaining' := fun s o c => hremaining s o c
  simp only at hfirst' hremaining'
  intro state openBlock closed
  simp only [primitiveOperation, hfirst', resultOf, hremaining', preparePrimitive, hall,
    prepareOperands]
  cases hl : primitive.isLogical
  · simp [operationResultOf, operationOfPrep, List.append_assoc]
  · simp only [if_true, ← List.map_cons, booleanizeAll_cursorOf]
    simp [operationResultOf, operationOfPrep, List.append_assoc]

/-- Both lowerings of an expression agree. -/
def BothAgree (spelling : Spelling) (expression : CoreExpression) : Prop :=
  Agrees spelling Atom.ofPrep (fun c => atomize c (Expression.ofCore spelling expression))
      (CorePrep.atomize expression) ∧
    Agrees spelling operationResultOf
      (fun c => atomizeOperation c (Expression.ofCore spelling expression))
      (CorePrep.atomizeOperation expression)

/-- An expression that is copied as an operation agrees once its atom does. -/
theorem bothAgree_of_copy (h : copiesItsAtom expression = true) (hatom : Agrees spelling Atom.ofPrep
      (fun c => atomize c (Expression.ofCore spelling expression)) (CorePrep.atomize expression)) :
    BothAgree spelling expression := by
  refine ⟨hatom, fun state openBlock closed => ?_⟩
  have hcopy : ∀ c, atomizeOperation c (Expression.ofCore spelling expression) =
      (copyOperation (atomize c (Expression.ofCore spelling expression)).1,
        (atomize c (Expression.ofCore spelling expression)).2) := by
    intro c
    unfold copiesItsAtom at h
    split at h
    · simp only [Expression.ofCore]; rw [atomizeOperation] <;> simp
    · simp only [Expression.ofCore]; rw [atomizeOperation] <;> simp
    · next primitive left right valueType =>
        simp only [Expression.ofCore, Expression.ofCoreMany]
        rw [atomizeOperation]
        simp [ChainLink.shortCircuitOperand?, h]
    · cases h
  have hatom' := hatom state openBlock closed
  simp only at hatom'
  simp only [hcopy, hatom', resultOf, atomizeOperation_copy h, copyAtom]
  rfl

theorem shortCircuitOperand?_eq_none {first : CoreExpression}
    {rest : List CoreExpression} {valueType : Ty} {type : NativeType}
    (h : copiesItsAtom (.corePrimitive primitive (first :: rest) valueType) = false) :
    (ChainLink.mk primitive (Expression.ofCoreMany spelling rest) type).shortCircuitOperand? =
      none := by
  match rest, h with
  | [], _ => simp [ChainLink.shortCircuitOperand?, Expression.ofCoreMany]
  | [right], h =>
      have h' : isShortCircuit primitive = false := h
      simp [ChainLink.shortCircuitOperand?, Expression.ofCoreMany, h']
  | _ :: _ :: _, _ => simp [ChainLink.shortCircuitOperand?, Expression.ofCoreMany]

/-- An expression that is bound to a temporary agrees once its operation does. -/
theorem bothAgree_of_bind (h : bindsItsOperation expression = true) (hoperation : Agrees spelling operationResultOf
      (fun c => atomizeOperation c (Expression.ofCore spelling expression))
      (CorePrep.atomizeOperation expression)) :
    BothAgree spelling expression := by
  refine ⟨fun state openBlock closed => ?_, hoperation⟩
  have hbind : ∀ c, atomize c (Expression.ofCore spelling expression) =
      bindTemporary (atomizeOperation c (Expression.ofCore spelling expression)).2
        (NativeType.ofCore (expressionType expression))
        (atomizeOperation c (Expression.ofCore spelling expression)).1 := by
    intro c
    have hprimitive : ∀ (c : Cursor) (primitive : CorePrimitive) (first : CoreExpression)
        (rest : List CoreExpression) (valueType : Ty),
        copiesItsAtom (.corePrimitive primitive (first :: rest) valueType) = false →
        atomize c (Expression.ofCore spelling (.corePrimitive primitive (first :: rest) valueType)) =
          bindTemporary (atomizeOperation c (Expression.ofCore spelling
              (.corePrimitive primitive (first :: rest) valueType))).2 (NativeType.ofCore valueType)
            (atomizeOperation c (Expression.ofCore spelling
              (.corePrimitive primitive (first :: rest) valueType))).1 := by
      intro c primitive first rest valueType hcopy
      simp only [Expression.ofCore, Expression.ofCoreMany, atomize_primitive]
      rw [atomizeOperation, completeFirstOperand_none (shortCircuitOperand?_eq_none hcopy)]
      simp only [shortCircuitOperand?_eq_none hcopy, Option.isSome_none, Bool.false_eq_true,
        if_false]
    unfold bindsItsOperation at h
    split at h
    · next primitive left right valueType =>
        have h' : isShortCircuit primitive = false := by simpa using h
        exact hprimitive c primitive _ _ _ (by simpa [copiesItsAtom] using h')
    · next primitive arguments valueType hne =>
        cases arguments with
        | nil =>
            simp only [Expression.ofCore, Expression.ofCoreMany]
            rw [atomize_leaf (by simp [Expression.isLeaf]), atomizeLeaf, atomizeOperation]
            rfl
        | cons first rest =>
            refine hprimitive c primitive _ _ _ ?_
            unfold copiesItsAtom
            split <;> first | rfl | simp_all
    · simp only [Expression.ofCore]
      rw [atomize_leaf (by simp [Expression.isLeaf]), atomizeLeaf, atomizeOperation]
      rfl
    · simp only [Expression.ofCore]
      rw [atomize_leaf (by simp [Expression.isLeaf]), atomizeLeaf, atomizeOperation]
      rfl
    · cases h
  have hoperation' := hoperation state openBlock closed
  simp only at hoperation'
  simp only [hbind, hoperation', bindTemporary_resultOf, atomize_bind h]

mutual

/-- **Expressions lower alike**, as atoms and as operations. -/
theorem expression_agrees (spelling : Spelling) : ∀ (expression : CoreExpression)
    {environment : Environment}, verifyExpression environment expression = [] →
    BothAgree spelling expression
  | .coreVariable name valueType, _, _ => by
      refine ⟨fun state openBlock closed => ?_, fun state openBlock closed => ?_⟩
      · simp only [Expression.ofCore, CorePrep.atomize]
        rw [atomize_leaf (by simp [Expression.isLeaf]), atomizeLeaf]
        simp [resultOf, Atom.ofPrep]
      · simp only [Expression.ofCore, CorePrep.atomizeOperation]
        rw [atomizeOperation]
        simp [resultOf, Atom.ofPrep, copyOperation, operationResultOf, operationOfPrep]
  | .coreLiteral literal valueType, _, _ => by
      refine ⟨fun state openBlock closed => ?_, fun state openBlock closed => ?_⟩
      · simp only [Expression.ofCore, CorePrep.atomize]
        rw [atomize_leaf (by simp [Expression.isLeaf]), atomizeLeaf]
        simp [resultOf, lowerLiteral_ofCore]
      · simp only [Expression.ofCore, CorePrep.atomizeOperation]
        rw [atomizeOperation]
        simp [resultOf, lowerLiteral_ofCore, copyOperation, operationResultOf, operationOfPrep]
  | .coreLet name bindingType value body valueType, _, h => by
      obtain ⟨-, -, -, hvalue, -, hbody, -⟩ := verifyExpression_coreLet.mp h
      refine bothAgree_of_copy rfl ?_
      have := let_agrees name bindingType (NativeType.ofCore valueType)
        (expression_agrees spelling value hvalue).2 (expression_agrees spelling body hbody).1
      simpa only [Expression.ofCore, CorePrep.atomize] using this
  | .coreConditional condition whenTrue whenFalse valueType, _, h => by
      obtain ⟨-, hcondition, -, htrue, hfalse, htrueType, hfalseType, -⟩ :=
        verifyExpression_coreConditional.mp h
      refine bothAgree_of_copy rfl ?_
      have := conditional_agrees valueType
        (expression_agrees spelling condition hcondition).1
        (expression_agrees spelling whenTrue htrue).1 (expression_agrees spelling whenFalse hfalse).1
        (fun s o => by rw [atomize_type whenTrue htrue, htrueType])
        (fun s o => by rw [atomize_type whenFalse hfalse, hfalseType])
      simpa only [Expression.ofCore, CorePrep.atomize] using this
  | .coreApply callee arguments valueType, _, h => by
      obtain ⟨-, hcallee, harguments, -⟩ := verifyExpression_coreApply.mp h
      refine bothAgree_of_bind rfl ?_
      have := call_agrees (expression_agrees spelling callee hcallee).1
        (expressions_agree spelling arguments harguments)
      intro state openBlock closed
      simp only [Expression.ofCore, CorePrep.atomizeOperation]
      rw [atomizeOperation]
      exact this state openBlock closed
  | .coreClosure captures parameters returnType body valueType, _, h => by
      obtain ⟨-, -, -, hcaptures, -⟩ := verifyExpression_coreClosure.mp h
      refine bothAgree_of_bind rfl ?_
      have := closure_agrees parameters returnType body
        (captures_agree spelling captures hcaptures)
      intro state openBlock closed
      simp only [Expression.ofCore, CorePrep.atomizeOperation]
      rw [atomizeOperation]
      exact this state openBlock closed
  | .corePrimitive primitive [] valueType, _, _ => by
      refine bothAgree_of_bind rfl ?_
      intro state openBlock closed
      simp only [Expression.ofCore, Expression.ofCoreMany, CorePrep.atomizeOperation]
      rw [atomizeOperation]
      simp only [preparePrimitive, CorePrep.atomizeMany, prepareOperands, booleanizeMany, ite_self]
      simp [resultOf, operationResultOf, operationOfPrep]
  | .corePrimitive primitive (first :: rest) valueType, _, h => by
      obtain ⟨-, harguments, -⟩ := verifyExpression_corePrimitive.mp h
      obtain ⟨hfirst, hrest⟩ := verifyExpressions_cons.mp harguments
      have ihfirst := expression_agrees spelling first hfirst
      have ihrest := expressions_agree spelling rest hrest
      by_cases hcopy : copiesItsAtom (.corePrimitive primitive (first :: rest) valueType) = true
      · refine bothAgree_of_copy hcopy ?_
        -- exactly two operands and a short-circuit operator
        match rest, hcopy, ihrest with
        | [right], hshort, ihrest =>
            have hshort' : isShortCircuit primitive = true := hshort
            have hright := (expression_agrees spelling right (verifyExpressions_cons.mp hrest).1).1
            intro state openBlock closed
            have hfirst' := ihfirst.1 state openBlock closed
            simp only at hfirst'
            simp only [Expression.ofCore, Expression.ofCoreMany, atomize_primitive, hfirst']
            have hoperand : (ChainLink.mk primitive [Expression.ofCore spelling right]
                (NativeType.ofCore valueType)).shortCircuitOperand? =
                  some (Expression.ofCore spelling right) := by
              simp [ChainLink.shortCircuitOperand?, hshort']
            rw [completeFirstOperand_some hoperand,
              finishShortCircuit_agrees hshort' hright]
            simp only [CorePrep.atomize, hshort', if_true]
        | [], hshort, _ => exact absurd hshort (by simp [copiesItsAtom])
        | _ :: _ :: _, hshort, _ => exact absurd hshort (by simp [copiesItsAtom])
      · have hcopy' := Bool.not_eq_true _ ▸ hcopy
        have hnone : (ChainLink.mk primitive (Expression.ofCoreMany spelling rest)
            (NativeType.ofCore valueType)).shortCircuitOperand? = none :=
          shortCircuitOperand?_eq_none hcopy'
        refine bothAgree_of_bind (bindsItsOperation_primitive hcopy') ?_
        intro state openBlock closed
        have hall : ∀ s o, CorePrep.atomizeMany (first :: rest) s o =
            let (closed, continued, atom, after) := CorePrep.atomize first s o
            let (laterBlocks, finalOpen, atoms, final) := CorePrep.atomizeMany rest after continued
            (closed ++ laterBlocks, finalOpen, atom :: atoms, final) :=
          fun s o => by rw [CorePrep.atomizeMany]
        have hprimitive := primitive_agrees primitive (NativeType.ofCore valueType) ihfirst.1 ihrest hall state openBlock closed
        simp only at hprimitive
        rw [atomizeOperation_primitive hcopy', ← hprimitive]
        simp only [Expression.ofCore, Expression.ofCoreMany]
        rw [atomizeOperation]
        simp only [hnone, Option.isSome_none, Bool.false_eq_true, if_false]

theorem expressions_agree (spelling : Spelling) : ∀ (expressions : List CoreExpression)
    {environment : Environment}, verifyExpressions environment expressions = [] →
    Agrees spelling (List.map Atom.ofPrep)
      (fun c => atomizeAll c (Expression.ofCoreMany spelling expressions))
      (CorePrep.atomizeMany expressions)
  | [], _, _ => by
      intro state openBlock closed
      simp only [Expression.ofCoreMany, CorePrep.atomizeMany]
      rw [atomizeAll]
      simp [resultOf]
  | expression :: remaining, _, h => by
      obtain ⟨hfirst, hrest⟩ := verifyExpressions_cons.mp h
      have ihfirst := fun s o c => (expression_agrees spelling expression hfirst).1 s o c
      have ihrest := fun s o c => expressions_agree spelling remaining hrest s o c
      simp only at ihfirst ihrest
      intro state openBlock closed
      simp only [Expression.ofCoreMany, CorePrep.atomizeMany]
      rw [atomizeAll]
      simp only [ihfirst, resultOf, ihrest]
      simp [List.append_assoc]

theorem captures_agree (spelling : Spelling) : ∀ (captures : List CoreCapture)
    {environment : Environment}, verifyCaptures environment captures = [] →
    Agrees spelling (List.map PreparedCapture.ofPrep)
      (fun c => atomizeCaptures c (Capture.ofCoreMany spelling captures))
      (CorePrep.atomizeCaptures captures)
  | [], _, _ => by
      intro state openBlock closed
      simp only [Capture.ofCoreMany, CorePrep.atomizeCaptures]
      rw [atomizeCaptures]
      simp [resultOf]
  | .coreCapture mode name type value :: remaining, _, h => by
      obtain ⟨-, -, hvalue, -, hrest⟩ := verifyCaptures_cons.mp h
      have ihvalue := fun s o c => (expression_agrees spelling value hvalue).1 s o c
      have ihrest := fun s o c => captures_agree spelling remaining hrest s o c
      simp only at ihvalue ihrest
      intro state openBlock closed
      simp only [Capture.ofCoreMany, CorePrep.atomizeCaptures]
      rw [atomizeCaptures]
      simp only [ihvalue, resultOf, ihrest]
      simp [List.append_assoc, PreparedCapture.ofPrep]

end

end LockStep

end Tala.Native
