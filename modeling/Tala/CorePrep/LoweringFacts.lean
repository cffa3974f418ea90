import Tala.CorePrep.Lowering

/-!
# `CorePrep.LoweringFacts` — what every lowering keeps

Facts about `atomize` and its companions that both CorePrep verification and the comparison with the
native lowering rest on: the atom of an accepted expression has the type of the expression
(`atomize_type`), and lifting terminates (`prepareGenerations_isSome`).
-/

namespace Tala.CorePrep

open Tala Tala.Core

variable {primitive : CorePrimitive} {arguments : Lowering (List CorePrepAtom)} {valueType : Ty}
  {condition : Lowering CorePrepAtom}

theorem isShortCircuit_isLogical (h : isShortCircuit primitive = true) : primitive.isLogical = true := by
  cases primitive <;> first | rfl | (exact absurd h (by decide))

/-- An accepted `&&`, `||` or `!` is Boolean. -/
theorem type_of_isLogical {arguments : List CoreExpression} (hlogical : primitive.isLogical = true)
    (h : primitiveProblems primitive arguments valueType = []) : valueType = boolType := by
  have hne : primitive ≠ .coreRuntimeCall := by rintro rfl; exact absurd hlogical (by decide)
  rw [primitiveProblems, if_neg hne] at h
  simp only [List.append_eq_nil_iff, typeMismatch_eq_nil] at h
  rw [← h.2, expectedResult, hlogical]
  rfl

attribute [local simp] atomize atomizeOperation

/-- **The atom of an accepted expression has its type.** -/
theorem atomize_type : ∀ (expression : CoreExpression) {environment : Environment}
    (_ : verifyExpression environment expression = []) (state : PrepState) (openBlock : OpenBlock),
    corePrepAtomType (atomize expression state openBlock).2.2.1 = expressionType expression
  | .coreVariable _ _, _, _, _, _ => by rw [atomize]; rfl
  | .coreLiteral _ _, _, _, _, _ => by rw [atomize]; rfl
  | .coreLet _ _ value body _, _, h, _, _ => by
      obtain ⟨-, -, -, -, -, hbody, htype⟩ := verifyExpression_coreLet.mp h
      rw [atomize]
      simp only [atomizeLet, expressionType, htype]
      exact atomize_type body hbody _ _
  | .corePrimitive primitive arguments valueType, _, h, _, _ => by
      obtain ⟨-, -, hproblems⟩ := verifyExpression_corePrimitive.mp h
      rw [atomize]
      split
      · split
        · next hshort =>
            exact (type_of_isLogical (isShortCircuit_isLogical hshort) hproblems).symm
        · rfl
      · rfl
  | .coreConditional _ _ _ _, _, _, _, _ => by rw [atomize]; rfl
  | .coreApply _ _ _, _, _, _, _ => by rw [atomize]; rfl
  | .coreClosure _ _ _ _ _, _, _, _, _ => by rw [atomize]; rfl

/-- The result of a conversion to a truth value is Boolean. -/
theorem booleanizeAtom_type (state : PrepState) (openBlock : OpenBlock) (atom : CorePrepAtom) :
    corePrepAtomType (booleanizeAtom state openBlock atom).2.1 = boolType := by
  rw [booleanizeAtom]
  split
  · assumption
  · rfl

/-- An expression lowered to an atom first is copied as an operation. -/
def copiesItsAtom : CoreExpression → Bool
  | .coreLet _ _ _ _ _ => true
  | .coreConditional _ _ _ _ => true
  | .corePrimitive primitive [_, _] _ => isShortCircuit primitive
  | _ => false

variable {expression : CoreExpression} {before : PrepState} {lowering value : Lowering CorePrepOperation}
  {values : Lowering (List CorePrepCapture)} {body callee : Lowering CorePrepAtom} {remaining : RegionLowering}
  {moduleValue : CoreModule} {function : CoreFunction}

theorem atomizeOperation_copy (h : copiesItsAtom expression = true) (state : PrepState) (openBlock : OpenBlock) :
    atomizeOperation expression state openBlock =
      copyAtom (atomize expression) state openBlock := by
  unfold copiesItsAtom at h
  split at h
  · simp only [atomizeOperation, atomize, copyAtom]
  · simp only [atomizeOperation, atomize, copyAtom]
  · next primitive left right valueType => simp only [atomizeOperation, atomize, copyAtom, h, if_true]
  · cases h

/-- Every other expression that is not a name or a literal is bound to a temporary as an atom. -/
def bindsItsOperation : CoreExpression → Bool
  | .corePrimitive primitive [_, _] _ => !isShortCircuit primitive
  | .corePrimitive _ _ _ => true
  | .coreApply _ _ _ => true
  | .coreClosure _ _ _ _ _ => true
  | _ => false

theorem bindsItsOperation_primitive {arguments : List CoreExpression}
    (h : copiesItsAtom (.corePrimitive primitive arguments valueType) = false) :
    bindsItsOperation (.corePrimitive primitive arguments valueType) = true := by
  unfold copiesItsAtom at h
  unfold bindsItsOperation
  split <;> simp_all

theorem atomizeOperation_primitive {arguments : List CoreExpression}
    (h : copiesItsAtom (.corePrimitive primitive arguments valueType) = false)
    (state : PrepState) (openBlock : OpenBlock) :
    atomizeOperation (.corePrimitive primitive arguments valueType) state openBlock =
      preparePrimitive primitive (atomizeMany arguments) state openBlock := by
  rw [atomizeOperation]
  split
  · next left right =>
      have h' : isShortCircuit primitive = false := h
      simp [h']
  · rfl

theorem atomize_bind (h : bindsItsOperation expression = true) (state : PrepState) (openBlock : OpenBlock) :
    atomize expression state openBlock =
      bindTemporary (expressionType expression) (atomizeOperation expression) state openBlock := by
  unfold bindsItsOperation at h
  split at h
  · next primitive left right valueType =>
      have h' : isShortCircuit primitive = false := by simpa using h
      simp [atomizeOperation, atomize, bindTemporary, h', expressionType]
  · next primitive arguments valueType hne =>
      cases arguments with
      | nil => simp [atomizeOperation, atomize, bindTemporary, expressionType]
      | cons a rest =>
          cases rest with
          | nil => simp [atomizeOperation, atomize, bindTemporary, expressionType]
          | cons b rest =>
              cases rest with
              | nil => exact (hne a b rfl).elim
              | cons c rest => simp [atomizeOperation, atomize, bindTemporary, expressionType]
  · simp [atomizeOperation, atomize, bindTemporary, expressionType]
  · simp [atomizeOperation, atomize, bindTemporary, expressionType]
  · cases h

/-! ## Lifted regions -/

/-- What a closure is lifted to, apart from its generated name. -/
structure Region where
  regionParameters : List (ResolvedName × Ty)
  regionReturnType : Ty
  regionBody : List CoreStatement

/-- The region of a function. -/
def regionOf (function : CoreFunction) : Region :=
  ⟨function.coreFunctionParameters, function.coreFunctionReturnType, function.coreFunctionBody⟩

/-- Statements after which nothing of the same list is lowered. -/
def endsRegion : CoreStatement → Bool
  | .coreReturn _ => true
  | .coreBreak => true
  | .coreContinue => true
  | _ => false

mutual

/-- The regions lifted while an expression is lowered, in the order they are queued. -/
def liftedExpression : CoreExpression → List Region
  | .coreVariable _ _ => []
  | .coreLiteral _ _ => []
  | .coreApply callee arguments _ => liftedExpression callee ++ liftedExpressions arguments
  | .corePrimitive _ arguments _ => liftedExpressions arguments
  | .coreLet _ _ value body _ => liftedExpression value ++ liftedExpression body
  | .coreConditional condition whenTrue whenFalse _ =>
      liftedExpression condition ++ liftedExpression whenTrue ++ liftedExpression whenFalse
  | .coreClosure captures parameters returnType body _ =>
      liftedCaptures captures ++
        [regionOf (liftedFunction ⟨0, ""⟩ captures parameters returnType body)]

def liftedExpressions : List CoreExpression → List Region
  | [] => []
  | expression :: remaining => liftedExpression expression ++ liftedExpressions remaining

def liftedCaptures : List CoreCapture → List Region
  | [] => []
  | .coreCapture _ _ _ value :: remaining => liftedExpression value ++ liftedCaptures remaining

/-- The regions lifted while a statement is lowered. -/
def liftedStatement : CoreStatement → List Region
  | .coreBind _ _ _ value => liftedExpression value
  | .coreAssign _ value => liftedExpression value
  | .coreReturn value => liftedExpression value
  | .coreEvaluate value => liftedExpression value
  | .coreIf condition whenTrue whenFalse =>
      liftedExpression condition ++ liftedStatements whenTrue ++ liftedStatements whenFalse
  | .coreWhile condition body => liftedExpression condition ++ liftedStatements body
  | .coreDoWhile body condition => liftedStatements body ++ liftedExpression condition
  | .coreFor condition body update =>
      liftedExpression condition ++ liftedStatements body ++ liftedStatements update
  | .coreBreak => []
  | .coreContinue => []

/-- The regions lifted from statements that are lowered. -/
def liftedStatements : List CoreStatement → List Region
  | [] => []
  | statement :: remaining =>
      liftedStatement statement ++
        if endsRegion statement then [] else liftedStatements remaining

end

/-! ## How a state grows -/

/-- The state after a lowering: counters grow, the regions are queued for the current source file, and
the loop targets are those it started with. -/
structure Extends (lifted : List Region) (before after : PrepState) : Prop where
  pending : ∃ queued, after.pendingFunctions = before.pendingFunctions ++ queued ∧
    queued.map (fun p => regionOf p.1) = lifted ∧ ∀ p ∈ queued, p.2 = before.currentSourceFile
  temporaries : before.nextTemporary ≤ after.nextTemporary
  blocks : before.nextBlock ≤ after.nextBlock
  sourceFile : after.currentSourceFile = before.currentSourceFile
  loopTargets : after.loopTargets = before.loopTargets

theorem Extends.refl (state : PrepState) : Extends [] state state :=
  ⟨⟨[], by simp⟩, le_refl _, Nat.le_refl _, rfl, rfl⟩

variable {first second : List Region}

theorem Extends.trans {s t u : PrepState} (h : Extends first s t)
    (h' : Extends second t u) : Extends (first ++ second) s u := by
  obtain ⟨queued, hp, hmap, hfile⟩ := h.pending
  obtain ⟨queued', hp', hmap', hfile'⟩ := h'.pending
  refine ⟨⟨queued ++ queued', by rw [hp', hp, List.append_assoc], by simp [hmap, hmap'], ?_⟩,
    le_trans h.temporaries h'.temporaries, Nat.le_trans h.blocks h'.blocks,
    h'.sourceFile.trans h.sourceFile, h'.loopTargets.trans h.loopTargets⟩
  intro p hm
  rcases List.mem_append.mp hm with hm | hm
  · exact hfile p hm
  · rw [hfile' p hm, h.sourceFile]

variable {lifted : List Region}

/-- Only the counters changed. -/
theorem Extends.count {s t u : PrepState} (h : Extends lifted s t)
    (hpending : u.pendingFunctions = t.pendingFunctions)
    (hfile : u.currentSourceFile = t.currentSourceFile) (htargets : u.loopTargets = t.loopTargets)
    (htemporary : t.nextTemporary ≤ u.nextTemporary) (hblock : t.nextBlock ≤ u.nextBlock) :
    Extends lifted s u :=
  ⟨hpending ▸ h.pending, le_trans h.temporaries htemporary, Nat.le_trans h.blocks hblock,
    hfile.trans h.sourceFile, htargets.trans h.loopTargets⟩

/-- A region of a loop restores the targets its loop was entered with. -/
theorem Extends.region {s m t : PrepState} {targets : List (Nat × Nat)} (h : Extends first s m)
    (h' : Extends second { m with loopTargets := targets } t) :
    Extends (first ++ second) s { t with loopTargets := s.loopTargets } := by
  have hm : Extends second m { t with loopTargets := m.loopTargets } :=
    ⟨h'.pending, h'.temporaries, h'.blocks, h'.sourceFile, rfl⟩
  have htrans := h.trans hm
  rw [h.loopTargets] at htrans
  exact htrans

/-- A lowering that queues exactly the given regions. -/
def Lifts {α : Type} (lifted : List Region) (lowering : Lowering α) : Prop :=
  ∀ state openBlock, Extends lifted state (lowering state openBlock).2.2.2

theorem booleanizeAtom_extends {state : PrepState}
    (h : Extends lifted before state) (openBlock : OpenBlock) (atom : CorePrepAtom) :
    Extends lifted before (booleanizeAtom state openBlock atom).2.2 := by
  rw [booleanizeAtom]
  split
  · exact h
  · exact h.count rfl rfl rfl (Int.le_add_one (le_refl _)) (Nat.le_refl _)

theorem booleanizeMany_extends :
    ∀ (atoms : List CorePrepAtom) {state : PrepState} (_ : Extends lifted before state)
      (openBlock : OpenBlock), Extends lifted before (booleanizeMany state openBlock atoms).2.2
  | [], _, h, _ => h
  | atom :: remaining, _, h, openBlock => by
      rw [booleanizeMany]
      exact booleanizeMany_extends remaining (booleanizeAtom_extends h openBlock atom) _

theorem atomizeShortCircuit_lifts (primitive : CorePrimitive) {left right : Lowering CorePrepAtom}
    (hleft : Lifts first left) (hright : Lifts second right) :
    Lifts (first ++ second) (atomizeShortCircuit primitive left right) := by
  intro state openBlock
  have hl := hleft state openBlock
  simp only [atomizeShortCircuit]
  refine booleanizeAtom_extends (Extends.trans ?_ (hright _ _)) _ _
  exact (booleanizeAtom_extends hl _ _).count rfl rfl rfl (Int.le_add_one (le_refl _))
    (Nat.le_add_right _ 2)

variable {third : List Region}

theorem atomizeConditional_lifts {whenTrue whenFalse : Lowering CorePrepAtom}
    (valueType : Ty) (hcondition : Lifts first condition)
    (htrue : Lifts second whenTrue) (hfalse : Lifts third whenFalse) :
    Lifts (first ++ second ++ third)
      (atomizeConditional condition whenTrue whenFalse valueType) := by
  intro state openBlock
  have hc := hcondition state openBlock
  simp only [atomizeConditional, prepareArm]
  refine Extends.trans (Extends.trans ?_ (htrue _ _)) (hfalse _ _)
  exact (booleanizeAtom_extends hc _ _).count rfl rfl rfl (Int.le_add_one (le_refl _))
    (Nat.le_add_right _ 3)

theorem bindTemporary_lifts (h : Lifts lifted lowering) :
    Lifts lifted (bindTemporary valueType lowering) := fun state openBlock =>
  (h state openBlock).count rfl rfl rfl (Int.le_add_one (le_refl _)) (Nat.le_refl _)

theorem preparePrimitive_lifts (primitive : CorePrimitive) (h : Lifts lifted arguments) :
    Lifts lifted (preparePrimitive primitive arguments) := by
  intro state openBlock
  simp only [preparePrimitive, prepareOperands]
  split
  · exact booleanizeMany_extends _ (h state openBlock) _
  · exact h state openBlock

theorem prepareClosure_lifts (captures : List CoreCapture) (parameters : List (ResolvedName × Ty))
    (returnType : Ty) (body : List CoreStatement) (h : Lifts lifted values) :
    Lifts (lifted ++ [regionOf (liftedFunction ⟨0, ""⟩ captures parameters returnType body)])
      (prepareClosure captures parameters returnType body values) := by
  intro state openBlock
  simp only [prepareClosure]
  have hstart : Extends [] state { state with nextTemporary := state.nextTemporary + 1 } :=
    (Extends.refl state).count rfl rfl rfl (Int.le_add_one (le_refl _)) (Nat.le_refl _)
  have hvalues := hstart.trans (h _ openBlock)
  refine Extends.trans (by simpa using hvalues) ⟨⟨[_], rfl, rfl, ?_⟩, le_refl _, Nat.le_refl _, rfl, rfl⟩
  simp

theorem copyAtom_lifts {lowering : Lowering CorePrepAtom}
    (h : Lifts lifted lowering) : Lifts lifted (copyAtom lowering) := h

theorem atomizeLet_lifts (name : ResolvedName) (valueType : Ty)
    (hvalue : Lifts first value) (hbody : Lifts second body) :
    Lifts (first ++ second) (atomizeLet name valueType value body) := fun state openBlock =>
  (hvalue state openBlock).trans (hbody _ _)

theorem prepareCall_lifts (hcallee : Lifts first callee) (harguments : Lifts second arguments) :
    Lifts (first ++ second) (prepareCall callee arguments) := fun state openBlock =>
  (hcallee state openBlock).trans (harguments _ _)

mutual

/-- **Lowering an expression queues its regions** and nothing else. -/
theorem expression_lifts : ∀ expression : CoreExpression,
    Lifts (liftedExpression expression) (atomize expression) ∧
      Lifts (liftedExpression expression) (atomizeOperation expression)
  | .coreVariable _ _ => by
      refine ⟨fun s o => ?_, fun s o => ?_⟩
      · rw [atomize, liftedExpression]; exact Extends.refl s
      · rw [atomizeOperation, liftedExpression]; exact Extends.refl s
  | .coreLiteral _ _ => by
      refine ⟨fun s o => ?_, fun s o => ?_⟩
      · rw [atomize, liftedExpression]; exact Extends.refl s
      · rw [atomizeOperation, liftedExpression]; exact Extends.refl s
  | .coreLet name valueType value body _ => by
      have h := atomizeLet_lifts name valueType
        (expression_lifts value).2 (expression_lifts body).1
      refine ⟨fun s o => ?_, fun s o => ?_⟩
      · rw [atomize, liftedExpression]; exact h s o
      · rw [atomizeOperation, liftedExpression]; exact h s o
  | .corePrimitive primitive arguments valueType => by
      have hmany := preparePrimitive_lifts primitive (expressions_lift arguments)
      by_cases hcopy : copiesItsAtom (.corePrimitive primitive arguments valueType) = true
      · have hatom : Lifts (liftedExpressions arguments)
            (atomize (.corePrimitive primitive arguments valueType)) := by
          match arguments, hcopy with
          | [left, right], hshort =>
              have hshort' : isShortCircuit primitive = true := hshort
              have := atomizeShortCircuit_lifts primitive
                (expression_lifts left).1 (expression_lifts right).1
              intro s o
              rw [atomize]
              simp only [hshort', if_true, liftedExpressions, List.append_nil]
              exact this s o
        refine ⟨?_, fun s o => ?_⟩
        · rw [liftedExpression]; exact hatom
        · rw [atomizeOperation_copy hcopy, liftedExpression]; exact copyAtom_lifts hatom s o
      · have hcopy' := Bool.not_eq_true _ ▸ hcopy
        have hoperation : Lifts (liftedExpressions arguments)
            (atomizeOperation (.corePrimitive primitive arguments valueType)) := fun s o => by
          rw [atomizeOperation_primitive hcopy']; exact hmany s o
        refine ⟨fun s o => ?_, ?_⟩
        · rw [atomize_bind (bindsItsOperation_primitive hcopy'), liftedExpression]
          exact bindTemporary_lifts hoperation s o
        · rw [liftedExpression]; exact hoperation
  | .coreConditional condition whenTrue whenFalse valueType => by
      have h := atomizeConditional_lifts valueType (expression_lifts condition).1
        (expression_lifts whenTrue).1 (expression_lifts whenFalse).1
      refine ⟨fun s o => ?_, fun s o => ?_⟩
      · rw [atomize, liftedExpression]; exact h s o
      · rw [atomizeOperation, liftedExpression]; exact copyAtom_lifts h s o
  | .coreApply callee arguments valueType => by
      have h := prepareCall_lifts (expression_lifts callee).1 (expressions_lift arguments)
      refine ⟨fun s o => ?_, fun s o => ?_⟩
      · rw [atomize, liftedExpression]; exact bindTemporary_lifts h s o
      · rw [atomizeOperation, liftedExpression]; exact h s o
  | .coreClosure captures parameters returnType body valueType => by
      have h := prepareClosure_lifts captures parameters returnType body (captures_lift captures)
      refine ⟨fun s o => ?_, fun s o => ?_⟩
      · rw [atomize, liftedExpression]; exact bindTemporary_lifts h s o
      · rw [atomizeOperation, liftedExpression]; exact h s o

theorem expressions_lift : ∀ expressions : List CoreExpression,
    Lifts (liftedExpressions expressions) (atomizeMany expressions)
  | [] => fun s o => by rw [atomizeMany, liftedExpressions]; exact Extends.refl s
  | expression :: remaining => fun s o => by
      rw [atomizeMany, liftedExpressions]
      exact ((expression_lifts expression).1 s o).trans (expressions_lift remaining _ _)

theorem captures_lift : ∀ captures : List CoreCapture,
    Lifts (liftedCaptures captures) (atomizeCaptures captures)
  | [] => fun s o => by rw [atomizeCaptures, liftedCaptures]; exact Extends.refl s
  | .coreCapture _ _ _ value :: remaining => fun s o => by
      rw [atomizeCaptures, liftedCaptures]
      exact ((expression_lifts value).1 s o).trans (captures_lift remaining _ _)

end

/-! ## Expressions do not see the loop targets -/

/-- The state inside a loop with the given targets. -/
def PrepState.retarget (targets : List (Nat × Nat)) (state : PrepState) : PrepState :=
  { state with loopTargets := targets }

/-- A lowering that works the same whatever the loop targets are. -/
def IgnoresTargets {α : Type} (lowering : Lowering α) : Prop :=
  ∀ targets state openBlock, lowering (state.retarget targets) openBlock =
    let lowered := lowering state openBlock
    (lowered.1, lowered.2.1, lowered.2.2.1, lowered.2.2.2.retarget targets)

theorem booleanizeAtom_retarget (targets : List (Nat × Nat)) (state : PrepState)
    (openBlock : OpenBlock) (atom : CorePrepAtom) :
    booleanizeAtom (state.retarget targets) openBlock atom =
      let lowered := booleanizeAtom state openBlock atom
      (lowered.1, lowered.2.1, lowered.2.2.retarget targets) := by
  rw [booleanizeAtom, booleanizeAtom]
  split <;> rfl

theorem booleanizeMany_retarget (targets : List (Nat × Nat)) :
    ∀ (atoms : List CorePrepAtom) (state : PrepState) (openBlock : OpenBlock),
      booleanizeMany (state.retarget targets) openBlock atoms =
        let lowered := booleanizeMany state openBlock atoms
        (lowered.1, lowered.2.1, lowered.2.2.retarget targets)
  | [], _, _ => rfl
  | atom :: remaining, state, openBlock => by
      simp only [booleanizeMany, booleanizeAtom_retarget, booleanizeMany_retarget targets remaining]

theorem atomizeShortCircuit_ignores (primitive : CorePrimitive) {left right : Lowering CorePrepAtom}
    (hleft : IgnoresTargets left) (hright : IgnoresTargets right) :
    IgnoresTargets (atomizeShortCircuit primitive left right) := by
  intro targets state openBlock
  have hright' := fun (s : PrepState) temporary block o =>
    hright targets { s with nextTemporary := temporary, nextBlock := block } o
  simp only [PrepState.retarget] at hright'
  simp only [atomizeShortCircuit, hleft targets, booleanizeAtom_retarget]
  simp only [PrepState.retarget, hright']
  have hboolean := fun (s : PrepState) o a => booleanizeAtom_retarget targets s o a
  simp only [PrepState.retarget] at hboolean
  simp only [hboolean]

theorem atomizeConditional_ignores {whenTrue whenFalse : Lowering CorePrepAtom}
    (valueType : Ty) (hcondition : IgnoresTargets condition) (htrue : IgnoresTargets whenTrue)
    (hfalse : IgnoresTargets whenFalse) :
    IgnoresTargets (atomizeConditional condition whenTrue whenFalse valueType) := by
  intro targets state openBlock
  have htrue' := fun (s : PrepState) temporary block o =>
    htrue targets { s with nextTemporary := temporary, nextBlock := block } o
  have hfalse' := fun (s : PrepState) o => hfalse targets s o
  simp only [PrepState.retarget] at htrue' hfalse'
  simp only [atomizeConditional, prepareArm, hcondition targets, booleanizeAtom_retarget]
  simp only [PrepState.retarget, htrue', hfalse']

theorem bindTemporary_ignores (h : IgnoresTargets lowering) : IgnoresTargets (bindTemporary valueType lowering) := by
  intro targets state openBlock
  simp only [bindTemporary, h targets]
  rfl

theorem preparePrimitive_ignores (h : IgnoresTargets arguments) :
    IgnoresTargets (preparePrimitive primitive arguments) := by
  intro targets state openBlock
  simp only [preparePrimitive, h targets, prepareOperands, booleanizeMany_retarget]
  split <;> rfl

theorem prepareClosure_ignores (captures : List CoreCapture) (parameters : List (ResolvedName × Ty))
    (returnType : Ty) (body : List CoreStatement) (h : IgnoresTargets values) :
    IgnoresTargets (prepareClosure captures parameters returnType body values) := by
  intro targets state openBlock
  have h' := fun (s : PrepState) temporary o => h targets { s with nextTemporary := temporary } o
  simp only [PrepState.retarget] at h'
  simp only [prepareClosure, PrepState.retarget, h']

theorem copyAtom_ignores {lowering : Lowering CorePrepAtom} (h : IgnoresTargets lowering) :
    IgnoresTargets (copyAtom lowering) := by
  intro targets state openBlock
  simp only [copyAtom, h targets]

theorem atomizeLet_ignores (name : ResolvedName) (valueType : Ty)
    (hvalue : IgnoresTargets value) (hbody : IgnoresTargets body) :
    IgnoresTargets (atomizeLet name valueType value body) := by
  intro targets state openBlock
  simp only [atomizeLet, hvalue targets, hbody targets]

theorem prepareCall_ignores (hcallee : IgnoresTargets callee)
    (harguments : IgnoresTargets arguments) : IgnoresTargets (prepareCall callee arguments) := by
  intro targets state openBlock
  simp only [prepareCall, hcallee targets, harguments targets]

mutual

/-- **The loop targets do not matter to an expression.** -/
theorem expression_ignores : ∀ expression : CoreExpression,
    IgnoresTargets (atomize expression) ∧ IgnoresTargets (atomizeOperation expression)
  | .coreVariable _ _ =>
      ⟨fun _ _ _ => by simp only [atomize], fun _ _ _ => by simp only [atomizeOperation]⟩
  | .coreLiteral _ _ =>
      ⟨fun _ _ _ => by simp only [atomize], fun _ _ _ => by simp only [atomizeOperation]⟩
  | .coreLet name valueType value body _ => by
      have h := atomizeLet_ignores name valueType
        (expression_ignores value).2 (expression_ignores body).1
      refine ⟨fun t s o => ?_, fun t s o => ?_⟩
      · simp only [atomize]; exact h t s o
      · simp only [atomizeOperation]; exact copyAtom_ignores h t s o
  | .corePrimitive primitive arguments valueType => by
      by_cases hcopy : copiesItsAtom (.corePrimitive primitive arguments valueType) = true
      · have hatom : IgnoresTargets (atomize (.corePrimitive primitive arguments valueType)) := by
          match arguments, hcopy with
          | [left, right], hshort =>
              have hshort' : isShortCircuit primitive = true := hshort
              have := atomizeShortCircuit_ignores primitive
                (expression_ignores left).1 (expression_ignores right).1
              intro t s o
              simp only [atomize, hshort', if_true]
              exact this t s o
        refine ⟨hatom, fun t s o => ?_⟩
        rw [atomizeOperation_copy hcopy, atomizeOperation_copy hcopy]
        exact copyAtom_ignores hatom t s o
      · have hcopy' := Bool.not_eq_true _ ▸ hcopy
        have hoperation : IgnoresTargets
            (atomizeOperation (.corePrimitive primitive arguments valueType)) := fun t s o => by
          rw [atomizeOperation_primitive hcopy', atomizeOperation_primitive hcopy']
          exact preparePrimitive_ignores (expressions_ignore arguments) t s o
        refine ⟨fun t s o => ?_, hoperation⟩
        rw [atomize_bind (bindsItsOperation_primitive hcopy'),
          atomize_bind (bindsItsOperation_primitive hcopy')]
        exact bindTemporary_ignores hoperation t s o
  | .coreConditional condition whenTrue whenFalse valueType => by
      have h := atomizeConditional_ignores valueType (expression_ignores condition).1
        (expression_ignores whenTrue).1 (expression_ignores whenFalse).1
      refine ⟨fun t s o => ?_, fun t s o => ?_⟩
      · simp only [atomize]; exact h t s o
      · simp only [atomizeOperation]; exact copyAtom_ignores h t s o
  | .coreApply callee arguments valueType => by
      have h := prepareCall_ignores (expression_ignores callee).1 (expressions_ignore arguments)
      refine ⟨fun t s o => ?_, fun t s o => ?_⟩
      · simp only [atomize]; exact bindTemporary_ignores h t s o
      · simp only [atomizeOperation]; exact h t s o
  | .coreClosure captures parameters returnType body valueType => by
      have h := prepareClosure_ignores captures parameters returnType body (captures_ignore captures)
      refine ⟨fun t s o => ?_, fun t s o => ?_⟩
      · simp only [atomize]; exact bindTemporary_ignores h t s o
      · simp only [atomizeOperation]; exact h t s o

theorem expressions_ignore : ∀ expressions : List CoreExpression,
    IgnoresTargets (atomizeMany expressions)
  | [] => fun _ _ _ => by simp only [atomizeMany]
  | expression :: remaining => fun t _ _ => by
      simp only [atomizeMany, (expression_ignores expression).1 t, expressions_ignore remaining t]

theorem captures_ignore : ∀ captures : List CoreCapture, IgnoresTargets (atomizeCaptures captures)
  | [] => fun _ _ _ => by simp only [atomizeCaptures]
  | .coreCapture _ _ _ value :: remaining => fun t _ _ => by
      simp only [atomizeCaptures, (expression_ignores value).1 t, captures_ignore remaining t]

end

/-- A region lowering that queues exactly the given regions. -/
def RegionLifts (lifted : List Region) (region : RegionLowering) : Prop :=
  ∀ ending state openBlock, Extends lifted state (region ending state openBlock).2

/-- A loop or branch that queues exactly the given regions. -/
def BlocksLift (lifted : List Region)
    (region : PrepState → OpenBlock → List CorePrepBlock × OpenBlock × PrepState) : Prop :=
  ∀ state openBlock, Extends lifted state (region state openBlock).2.2

theorem reserve_extends (state : PrepState) (count : Nat) :
    Extends [] state { state with nextBlock := state.nextBlock + count } :=
  (Extends.refl state).count rfl rfl rfl (le_refl _) (Nat.le_add_right _ count)

theorem prepareWhile_lifts {body : RegionLowering} (hcondition : Lifts first condition)
    (hbody : RegionLifts second body) : BlocksLift (first ++ second) (prepareWhile condition body) := by
  intro state openBlock
  have hc := fun o => (reserve_extends state 3).trans (hcondition _ o)
  exact Extends.region (booleanizeAtom_extends (hc _) _ _) (hbody _ _ _)

theorem prepareDoWhile_lifts {body : RegionLowering} (hbody : RegionLifts first body)
    (hcondition : Lifts second condition) :
    BlocksLift (first ++ second) (prepareDoWhile body condition) := by
  intro state openBlock
  exact @Extends.region [] (first ++ second) _ _ _ _ (reserve_extends state 3)
    (booleanizeAtom_extends ((hbody _ _ _).trans (hcondition _ _)) _ _)

theorem prepareFor_lifts {body update : RegionLowering} (hcondition : Lifts first condition)
    (hbody : RegionLifts second body) (hupdate : RegionLifts third update) :
    BlocksLift (first ++ second ++ third) (prepareFor condition body update) := by
  intro state openBlock
  have hc := fun o => (reserve_extends state 4).trans (hcondition _ o)
  exact Extends.region (Extends.region (booleanizeAtom_extends (hc _) _ _) (hbody _ _ _))
    (hupdate _ _ _)

theorem prepareIf_lifts {whenTrue whenFalse : RegionLowering} (hcondition : Lifts first condition)
    (htrue : RegionLifts second whenTrue) (hfalse : RegionLifts third whenFalse) :
    BlocksLift (first ++ second ++ third) (prepareIf condition whenTrue whenFalse) := by
  intro state openBlock
  have hc := fun o => booleanizeAtom_extends (hcondition state openBlock) o
    (condition state openBlock).2.2.1
  have hreserved := (hc (condition state openBlock).2.1).trans (reserve_extends _ 3)
  rw [List.append_nil] at hreserved
  exact (hreserved.trans (htrue _ _ _)).trans (hfalse _ _ _)

theorem continueWith_lifts {α : Type} {lowering : Lowering α} {instruction : α → Option CorePrepInstruction}
    (h : Lifts first lowering) (hremaining : RegionLifts second remaining) :
    RegionLifts (first ++ second) (fun ending => continueWith lowering instruction (remaining ending)) :=
  fun _ state openBlock => (h state openBlock).trans (hremaining _ _ _)

theorem continueAfter_lifts {region : PrepState → OpenBlock → List CorePrepBlock × OpenBlock × PrepState}
    (h : BlocksLift first region) (hremaining : RegionLifts second remaining) :
    RegionLifts (first ++ second) (fun ending => continueAfter region (remaining ending)) :=
  fun _ state openBlock => (h state openBlock).trans (hremaining _ _ _)

theorem closeLoopControl_extends (state : PrepState) (openBlock : OpenBlock) (isBreak : Bool) :
    Extends [] state (closeLoopControl state openBlock isBreak).2 := by
  rw [closeLoopControl]
  split <;> exact Extends.refl state

mutual

/-- Lowering a statement queues its regions, then those of the statements it lets through. -/
theorem statement_lifts : ∀ (statement : CoreStatement) {remaining : RegionLowering}
    {rest : List Region}, RegionLifts rest remaining →
    RegionLifts (liftedStatement statement ++ if endsRegion statement then [] else rest)
      (prepareStatement statement remaining)
  | .coreBind _ _ _ value, _, _, h => by
      simp only [prepareStatement, liftedStatement, endsRegion, Bool.false_eq_true, if_false]
      exact continueWith_lifts (expression_lifts value).2 h
  | .coreAssign _ value, _, _, h => by
      simp only [prepareStatement, liftedStatement, endsRegion, Bool.false_eq_true, if_false]
      exact continueWith_lifts (expression_lifts value).1 h
  | .coreEvaluate value, _, _, h => by
      simp only [prepareStatement, liftedStatement, endsRegion, Bool.false_eq_true, if_false]
      split
      · exact continueWith_lifts (expression_lifts value).2 h
      · exact continueWith_lifts (expression_lifts value).1 h
  | .coreReturn value, _, _, _ => by
      simp only [prepareStatement, liftedStatement, endsRegion, if_true, List.append_nil]
      exact fun _ state openBlock => (expression_lifts value).1 state openBlock
  | .coreIf condition whenTrue whenFalse, _, _, h => by
      simp only [prepareStatement, liftedStatement, endsRegion, Bool.false_eq_true, if_false]
      exact continueAfter_lifts (prepareIf_lifts (expression_lifts condition).1
        (statements_lift whenTrue) (statements_lift whenFalse)) h
  | .coreWhile condition body, _, _, h => by
      simp only [prepareStatement, liftedStatement, endsRegion, Bool.false_eq_true, if_false]
      exact continueAfter_lifts (prepareWhile_lifts (expression_lifts condition).1
        (statements_lift body)) h
  | .coreDoWhile body condition, _, _, h => by
      simp only [prepareStatement, liftedStatement, endsRegion, Bool.false_eq_true, if_false]
      exact continueAfter_lifts (prepareDoWhile_lifts (statements_lift body)
        (expression_lifts condition).1) h
  | .coreFor condition body update, _, _, h => by
      simp only [prepareStatement, liftedStatement, endsRegion, Bool.false_eq_true, if_false]
      exact continueAfter_lifts (prepareFor_lifts (expression_lifts condition).1
        (statements_lift body) (statements_lift update)) h
  | .coreBreak, _, _, _ => by
      simp only [prepareStatement, liftedStatement, endsRegion, if_true, List.append_nil]
      exact fun _ state openBlock => closeLoopControl_extends state openBlock true
  | .coreContinue, _, _, _ => by
      simp only [prepareStatement, liftedStatement, endsRegion, if_true, List.append_nil]
      exact fun _ state openBlock => closeLoopControl_extends state openBlock false

/-- **Lowering statements queues their regions** and nothing else. -/
theorem statements_lift : ∀ statements : List CoreStatement,
    RegionLifts (liftedStatements statements) (prepareStatementsTo statements)
  | [] => fun _ state openBlock => by
      rw [prepareStatementsTo, liftedStatements]; exact Extends.refl state
  | statement :: remaining => fun ending state openBlock => by
      rw [prepareStatementsTo, liftedStatements]
      exact statement_lifts statement (statements_lift remaining) ending state openBlock

end

/-! ## Lifting ends -/

mutual

theorem liftedExpression_depth : ∀ (expression : CoreExpression) (region : Region),
    region ∈ liftedExpression expression →
    closureDepthBody region.regionBody < closureDepth expression
  | .coreVariable _ _, _, h => by simp [liftedExpression] at h
  | .coreLiteral _ _, _, h => by simp [liftedExpression] at h
  | .coreApply callee arguments _, region, h => by
      simp only [liftedExpression, List.mem_append] at h
      simp only [closureDepth]
      rcases h with h | h
      · have := liftedExpression_depth callee region h; omega
      · have := liftedExpressions_depth arguments region h; omega
  | .corePrimitive _ arguments _, region, h => by
      simp only [liftedExpression] at h
      simp only [closureDepth]
      exact liftedExpressions_depth arguments region h
  | .coreLet _ _ value body _, region, h => by
      simp only [liftedExpression, List.mem_append] at h
      simp only [closureDepth]
      rcases h with h | h
      · have := liftedExpression_depth value region h; omega
      · have := liftedExpression_depth body region h; omega
  | .coreConditional condition whenTrue whenFalse _, region, h => by
      simp only [liftedExpression, List.mem_append] at h
      simp only [closureDepth]
      rcases h with (h | h) | h
      · have := liftedExpression_depth condition region h; omega
      · have := liftedExpression_depth whenTrue region h; omega
      · have := liftedExpression_depth whenFalse region h; omega
  | .coreClosure captures parameters returnType body _, region, h => by
      simp only [liftedExpression, List.mem_append, List.mem_singleton] at h
      simp only [closureDepth]
      rcases h with h | h
      · have := liftedCaptures_depth captures region h; omega
      · subst h; simp only [regionOf, liftedFunction]; omega

theorem liftedExpressions_depth : ∀ (expressions : List CoreExpression) (region : Region),
    region ∈ liftedExpressions expressions →
    closureDepthBody region.regionBody < closureDepthMany expressions
  | [], _, h => by simp [liftedExpressions] at h
  | expression :: remaining, region, h => by
      simp only [liftedExpressions, List.mem_append] at h
      simp only [closureDepthMany]
      rcases h with h | h
      · have := liftedExpression_depth expression region h; omega
      · have := liftedExpressions_depth remaining region h; omega

theorem liftedCaptures_depth : ∀ (captures : List CoreCapture) (region : Region),
    region ∈ liftedCaptures captures →
    closureDepthBody region.regionBody < closureDepthCaptures captures
  | [], _, h => by simp [liftedCaptures] at h
  | .coreCapture _ _ _ value :: remaining, region, h => by
      simp only [liftedCaptures, List.mem_append] at h
      simp only [closureDepthCaptures]
      rcases h with h | h
      · have := liftedExpression_depth value region h; omega
      · have := liftedCaptures_depth remaining region h; omega

theorem liftedStatement_depth : ∀ (statement : CoreStatement) (region : Region),
    region ∈ liftedStatement statement →
    closureDepthBody region.regionBody < closureDepthStatement statement
  | .coreBind _ _ _ value, region, h => by
      simp only [liftedStatement] at h; simp only [closureDepthStatement]
      exact liftedExpression_depth value region h
  | .coreAssign _ value, region, h => by
      simp only [liftedStatement] at h; simp only [closureDepthStatement]
      exact liftedExpression_depth value region h
  | .coreReturn value, region, h => by
      simp only [liftedStatement] at h; simp only [closureDepthStatement]
      exact liftedExpression_depth value region h
  | .coreEvaluate value, region, h => by
      simp only [liftedStatement] at h; simp only [closureDepthStatement]
      exact liftedExpression_depth value region h
  | .coreIf condition whenTrue whenFalse, region, h => by
      simp only [liftedStatement, List.mem_append] at h
      simp only [closureDepthStatement]
      rcases h with (h | h) | h
      · have := liftedExpression_depth condition region h; omega
      · have := liftedStatements_depth whenTrue region h; omega
      · have := liftedStatements_depth whenFalse region h; omega
  | .coreWhile condition body, region, h => by
      simp only [liftedStatement, List.mem_append] at h
      simp only [closureDepthStatement]
      rcases h with h | h
      · have := liftedExpression_depth condition region h; omega
      · have := liftedStatements_depth body region h; omega
  | .coreDoWhile body condition, region, h => by
      simp only [liftedStatement, List.mem_append] at h
      simp only [closureDepthStatement]
      rcases h with h | h
      · have := liftedStatements_depth body region h; omega
      · have := liftedExpression_depth condition region h; omega
  | .coreFor condition body update, region, h => by
      simp only [liftedStatement, List.mem_append] at h
      simp only [closureDepthStatement]
      rcases h with (h | h) | h
      · have := liftedExpression_depth condition region h; omega
      · have := liftedStatements_depth body region h; omega
      · have := liftedStatements_depth update region h; omega
  | .coreBreak, _, h => by simp [liftedStatement] at h
  | .coreContinue, _, h => by simp [liftedStatement] at h

/-- A lifted body nests closures less deeply than the statements it is lifted from. -/
theorem liftedStatements_depth : ∀ (statements : List CoreStatement) (region : Region),
    region ∈ liftedStatements statements →
    closureDepthBody region.regionBody < closureDepthBody statements
  | [], _, h => by simp [liftedStatements] at h
  | statement :: remaining, region, h => by
      simp only [liftedStatements, List.mem_append] at h
      simp only [closureDepthBody]
      rcases h with h | h
      · have := liftedStatement_depth statement region h; omega
      · split at h
        · simp at h
        · have := liftedStatements_depth remaining region h; omega

end

/-- The regions lifted from a list of functions. -/
def liftedRegions (regions : List Region) : List Region :=
  regions.flatMap (fun region => liftedStatements region.regionBody)

/-! ## Lifted regions are accepted -/

/-- A region the verifier accepted in some scope. -/
def Region.Accepted (region : Region) : Prop :=
  ResolvedType region.regionReturnType ∧ ∃ environment scope,
    verifyStatements environment region.regionReturnType scope region.regionBody = []

theorem resolvedType_ne_errorType (h : ResolvedType valueType) : valueType ≠ .errorType := by
  rintro rfl; exact absurd h.1 (by decide)

theorem resolvedType_result {parameters : List Ty} {result : Ty}
    (h : ResolvedType (.functionType parameters result)) : ResolvedType result := by
  obtain ⟨herror, hvalid⟩ := h
  refine ⟨?_, validType_result hvalid⟩
  simp only [containsError, Bool.or_eq_false_iff] at herror
  exact herror.2

mutual

theorem liftedExpression_accepted : ∀ (expression : CoreExpression) {environment : Environment},
    verifyExpression environment expression = [] →
    ∀ region ∈ liftedExpression expression, region.Accepted
  | .coreVariable _ _, _, _, _, hr => by simp [liftedExpression] at hr
  | .coreLiteral _ _, _, _, _, hr => by simp [liftedExpression] at hr
  | .coreApply callee arguments _, _, h, region, hr => by
      obtain ⟨-, hcallee, harguments, -⟩ := verifyExpression_coreApply.mp h
      rcases List.mem_append.mp hr with hr | hr
      · exact liftedExpression_accepted callee hcallee region hr
      · exact liftedExpressions_accepted arguments harguments region hr
  | .corePrimitive _ arguments _, _, h, region, hr => by
      obtain ⟨-, harguments, -⟩ := verifyExpression_corePrimitive.mp h
      exact liftedExpressions_accepted arguments harguments region hr
  | .coreLet _ _ value body _, _, h, region, hr => by
      obtain ⟨-, -, -, hvalue, -, hbody, -⟩ := verifyExpression_coreLet.mp h
      rcases List.mem_append.mp hr with hr | hr
      · exact liftedExpression_accepted value hvalue region hr
      · exact liftedExpression_accepted body hbody region hr
  | .coreConditional condition whenTrue whenFalse _, _, h, region, hr => by
      obtain ⟨-, hcondition, -, htrue, hfalse, -⟩ := verifyExpression_coreConditional.mp h
      simp only [liftedExpression, List.mem_append] at hr
      rcases hr with (hr | hr) | hr
      · exact liftedExpression_accepted condition hcondition region hr
      · exact liftedExpression_accepted whenTrue htrue region hr
      · exact liftedExpression_accepted whenFalse hfalse region hr
  | .coreClosure captures parameters returnType body _, _, h, region, hr => by
      obtain ⟨hresolved, -, -, hcaptures, -, rfl, hbody, -⟩ := verifyExpression_coreClosure.mp h
      simp only [liftedExpression, List.mem_append, List.mem_singleton] at hr
      rcases hr with hr | rfl
      · exact liftedCaptures_accepted captures hcaptures region hr
      · exact ⟨resolvedType_result hresolved, _, _, hbody⟩

theorem liftedExpressions_accepted : ∀ (expressions : List CoreExpression)
    {environment : Environment}, verifyExpressions environment expressions = [] →
    ∀ region ∈ liftedExpressions expressions, region.Accepted
  | [], _, _, _, hr => by simp [liftedExpressions] at hr
  | expression :: remaining, _, h, region, hr => by
      obtain ⟨hfirst, hrest⟩ := verifyExpressions_cons.mp h
      rcases List.mem_append.mp hr with hr | hr
      · exact liftedExpression_accepted expression hfirst region hr
      · exact liftedExpressions_accepted remaining hrest region hr

theorem liftedCaptures_accepted : ∀ (captures : List CoreCapture) {environment : Environment},
    verifyCaptures environment captures = [] →
    ∀ region ∈ liftedCaptures captures, region.Accepted
  | [], _, _, _, hr => by simp [liftedCaptures] at hr
  | .coreCapture _ _ _ value :: remaining, _, h, region, hr => by
      obtain ⟨-, -, hvalue, -, hrest⟩ := verifyCaptures_cons.mp h
      rcases List.mem_append.mp hr with hr | hr
      · exact liftedExpression_accepted value hvalue region hr
      · exact liftedCaptures_accepted remaining hrest region hr

theorem liftedStatement_accepted : ∀ (statement : CoreStatement) {environment : Environment}
    {returnType : Ty} {scope : TransferScope},
    verifyStatement environment returnType scope statement = [] →
    ∀ region ∈ liftedStatement statement, region.Accepted
  | .coreBind _ _ _ value, _, _, _, h, region, hr => by
      obtain ⟨-, -, -, -, hvalue⟩ := verifyStatement_coreBind.mp h
      exact liftedExpression_accepted value hvalue region hr
  | .coreAssign _ value, _, _, _, h, region, hr =>
      liftedExpression_accepted value (verifyStatement_coreAssign.mp h).2.1 region hr
  | .coreReturn value, _, _, _, h, region, hr =>
      liftedExpression_accepted value (verifyStatement_coreReturn.mp h).1 region hr
  | .coreEvaluate value, _, _, _, h, region, hr =>
      liftedExpression_accepted value (verifyStatement_coreEvaluate.mp h) region hr
  | .coreIf condition whenTrue whenFalse, _, _, _, h, region, hr => by
      obtain ⟨hcondition, -, htrue, hfalse⟩ := verifyStatement_coreIf.mp h
      simp only [liftedStatement, List.mem_append] at hr
      rcases hr with (hr | hr) | hr
      · exact liftedExpression_accepted condition hcondition region hr
      · exact liftedStatements_accepted whenTrue htrue region hr
      · exact liftedStatements_accepted whenFalse hfalse region hr
  | .coreWhile condition body, _, _, _, h, region, hr => by
      obtain ⟨hcondition, -, hbody⟩ := verifyStatement_coreWhile.mp h
      rcases List.mem_append.mp hr with hr | hr
      · exact liftedExpression_accepted condition hcondition region hr
      · exact liftedStatements_accepted body hbody region hr
  | .coreDoWhile body condition, _, _, _, h, region, hr => by
      obtain ⟨hbody, hcondition, -⟩ := verifyStatement_coreDoWhile.mp h
      rcases List.mem_append.mp hr with hr | hr
      · exact liftedStatements_accepted body hbody region hr
      · exact liftedExpression_accepted condition hcondition region hr
  | .coreFor condition body update, _, _, _, h, region, hr => by
      obtain ⟨hcondition, -, hbody, hupdate⟩ := verifyStatement_coreFor.mp h
      simp only [liftedStatement, List.mem_append] at hr
      rcases hr with (hr | hr) | hr
      · exact liftedExpression_accepted condition hcondition region hr
      · exact liftedStatements_accepted body hbody region hr
      · exact liftedStatements_accepted update hupdate region hr
  | .coreBreak, _, _, _, _, _, hr => by simp [liftedStatement] at hr
  | .coreContinue, _, _, _, _, _, hr => by simp [liftedStatement] at hr

/-- **What is lifted from accepted statements was accepted** where the closure stood. -/
theorem liftedStatements_accepted : ∀ (statements : List CoreStatement) {environment : Environment}
    {returnType : Ty} {scope : TransferScope},
    verifyStatements environment returnType scope statements = [] →
    ∀ region ∈ liftedStatements statements, region.Accepted
  | [], _, _, _, _, _, hr => by simp [liftedStatements] at hr
  | statement :: remaining, _, _, _, h, region, hr => by
      obtain ⟨hfirst, hrest⟩ := verifyStatements_cons.mp h
      rw [liftedStatements] at hr
      rcases List.mem_append.mp hr with hr | hr
      · exact liftedStatement_accepted statement hfirst region hr
      · split at hr
        · simp at hr
        · exact liftedStatements_accepted remaining hrest region hr

end

/-- What is lifted from accepted regions was accepted. -/
theorem liftedRegions_accepted (regions : List Region) (h : ∀ region ∈ regions, region.Accepted) :
    ∀ region ∈ liftedRegions regions, region.Accepted := by
  intro region hr
  obtain ⟨outer, houter, hlifted⟩ := List.mem_flatMap.mp hr
  obtain ⟨-, environment, scope, hbody⟩ := h outer houter
  exact liftedStatements_accepted _ hbody region hlifted

/-- The functions of an accepted module are accepted regions. -/
theorem accepted_of_verifyCore {accepted : CoreModule} (h : verifyCore moduleValue = .ok accepted)
    (hf : function ∈ moduleValue.coreModuleFunctions) : (regionOf function).Accepted := by
  obtain ⟨-, hresolved, -, -, hbody, -⟩ :=
    verifyFunction_eq_nil.mp ((functions_of_verifyCore h).2 function hf)
  exact ⟨hresolved, _, _, hbody⟩

/-- Preparing a function queues the regions lifted from its body. -/
theorem prepareFunction_lifts (state : PrepState) (function : CoreFunction) :
    Extends (liftedStatements function.coreFunctionBody) { state with loopTargets := [] }
      (prepareFunction state function).2 := by
  rw [prepareFunction]
  exact statements_lift _ _ _ _

/-- One generation lifts exactly the regions of its functions. -/
theorem prepareGeneration_lifts : ∀ (work : List (CoreFunction × String)) (state : PrepState),
    state.pendingFunctions = [] →
    (prepareGeneration state work).2.1.map (fun p => regionOf p.1) =
      liftedRegions (work.map fun p => regionOf p.1) ∧
    (prepareGeneration state work).2.2.pendingFunctions = []
  | [], _, h => ⟨rfl, h⟩
  | (function, sourceFile) :: remaining, state, h => by
      have hf := prepareFunction_lifts
        { state with nextBlock := 1, currentSourceFile := sourceFile } function
      obtain ⟨queued, hqueued, hmap, -⟩ := hf.pending
      have hq : (prepareFunction { state with nextBlock := 1, currentSourceFile := sourceFile }
          function).2.pendingFunctions = queued := by simpa [h] using hqueued
      have ih := prepareGeneration_lifts remaining
        { (prepareFunction { state with nextBlock := 1, currentSourceFile := sourceFile }
            function).2 with pendingFunctions := [] } rfl
      simp only [prepareGeneration, hq, List.map_append, hmap, ih, and_true]
      rfl

theorem closureDepthBody_lt_generations {functions : List CoreFunction} (h : function ∈ functions) :
    closureDepthBody function.coreFunctionBody < closureGenerations functions := by
  unfold closureGenerations
  induction functions with
  | nil => simp at h
  | cons first rest ih =>
      rw [List.foldr_cons]
      rcases List.mem_cons.mp h with rfl | h
      · omega
      · have := ih h; omega

theorem prepareGenerations_succ (bound : Nat) (state : PrepState) (first : CoreFunction × String)
    (rest : List (CoreFunction × String)) :
    prepareGenerations (bound + 1) state (first :: rest) =
      let lowered := prepareGeneration state (first :: rest)
      (prepareGenerations bound lowered.2.2 lowered.2.1).map
        fun later => (lowered.1 ++ later.1, later.2) := rfl

/-- **Lifting ends**: a bound above the closure depth of every waiting function is enough. -/
theorem prepareGenerations_isSome : ∀ (bound : Nat) (state : PrepState)
    (work : List (CoreFunction × String)), state.pendingFunctions = [] →
    (∀ p ∈ work, closureDepthBody p.1.coreFunctionBody < bound) →
    (prepareGenerations bound state work).isSome
  | _, _, [], _, _ => by rw [prepareGenerations]; rfl
  | 0, _, p :: _, _, h => absurd (h p (List.mem_cons_self ..)) (Nat.not_lt_zero _)
  | bound + 1, state, p :: rest, hstate, h => by
      obtain ⟨hmap, hpending⟩ := prepareGeneration_lifts (p :: rest) state hstate
      have hdepth : ∀ q ∈ (prepareGeneration state (p :: rest)).2.1,
          closureDepthBody q.1.coreFunctionBody < bound := by
        intro q hq
        have hregion : regionOf q.1 ∈ liftedRegions ((p :: rest).map fun p => regionOf p.1) :=
          hmap ▸ List.mem_map_of_mem (f := fun p => regionOf p.1) hq
        obtain ⟨region, hr, hlifted⟩ := List.mem_flatMap.mp hregion
        obtain ⟨function, hfunction, rfl⟩ := List.mem_map.mp hr
        have hlt := liftedStatements_depth _ _ hlifted
        have := h function hfunction
        simp only [regionOf] at hlt
        omega
      rw [prepareGenerations, Option.isSome_map]
      · exact prepareGenerations_isSome bound _ _ hpending hdepth
      · simp

/-- **`prepareCore` succeeds on every module the verifier accepts.** -/
theorem prepareCore_eq_ok (h : verifyCore moduleValue = .ok moduleValue) :
    ∃ prepared final, prepareGenerations (closureGenerations moduleValue.coreModuleFunctions)
        ⟨nextCoreSymbolValue moduleValue, 1, [], "", []⟩ (sourceOwned moduleValue)
          = some (prepared, final) ∧
      prepareCore moduleValue =
        .ok ⟨moduleValue.coreModuleName, prepared, moduleValue.coreModuleSourceFiles⟩ := by
  have hsome := prepareGenerations_isSome (closureGenerations moduleValue.coreModuleFunctions)
    ⟨nextCoreSymbolValue moduleValue, 1, [], "", []⟩ (sourceOwned moduleValue) rfl (by
      intro p hp
      obtain ⟨function, hfunction, rfl⟩ := List.mem_map.mp hp
      exact closureDepthBody_lt_generations hfunction)
  obtain ⟨⟨prepared, final⟩, hprepared⟩ := Option.isSome_iff_exists.mp hsome
  refine ⟨prepared, final, hprepared, ?_⟩
  rw [prepareCore, h]
  simp only [hprepared]

end Tala.CorePrep
