import Mathlib.Order.MinMax
import Mathlib.Tactic.Tauto
import Tala.Native.Prepare

/-!
# `Native.Walks` — the native walks are the plain recursion

The native lowering follows chains with explicit stacks. Each of its walks is shown equal to the
recursion it replaces: first operands (`atomize_primitive`), false arms (`atomize_conditional`),
`else if` chains (`prepareStatement_cond`), and the two worklists of the symbol scan
(`scanSymbols_ofCore`).
-/

namespace Tala.Native

open Tala Tala.Core Tala.CorePrep

/-! ## Expressions -/

/-- Expressions `walkChain` does not descend into. -/
def Expression.isLeaf : Expression → Prop
  | .primitive _ (_ :: _) _ => False
  | _ => True

variable {expression : Expression} {link : ChainLink} {highest : Int}

theorem atomize_leaf (h : expression.isLeaf) (cursor : Cursor) :
    atomize cursor expression = atomizeLeaf cursor expression := by
  cases expression with
  | letIn symbol type value body t => rw [atomize, atomizeLeaf]
  | primitive p operands t =>
      cases operands with
      | nil => rw [atomize, walkChain] <;> simp [completeChain]
      | cons f r => exact absurd h (by simp [Expression.isLeaf])
  | _ => rw [atomize, walkChain] <;> simp [completeChain]

theorem walkChain_leaf (h : expression.isLeaf) (cursor : Cursor) (chain : List ChainLink) :
    walkChain cursor chain expression =
      completeChain (atomize cursor expression).2 (atomize cursor expression).1 chain := by
  rw [atomize_leaf h]
  cases expression with
  | primitive p operands t =>
      cases operands with
      | nil => rw [walkChain]; simp
      | cons f r => exact absurd h (by simp [Expression.isLeaf])
  | _ => rw [walkChain]; simp

/-- **The chain walk**: the primitives passed are completed once their innermost operand has a
value. -/
theorem walkChain_eq (cursor : Cursor) (chain : List ChainLink) :
    ∀ expression : Expression, walkChain cursor chain expression =
      completeChain (atomize cursor expression).2 (atomize cursor expression).1 chain
  | .primitive p (f :: r) t => by
      have hwalk : walkChain cursor chain (.primitive p (f :: r) t) =
          walkChain cursor (⟨p, r, t⟩ :: chain) f := by rw [walkChain]
      have hatomize : atomize cursor (.primitive p (f :: r) t) =
          walkChain cursor [⟨p, r, t⟩] f := by rw [atomize, walkChain]; simp
      rw [hwalk, hatomize, walkChain_eq cursor _ f, walkChain_eq cursor _ f]
      simp only [completeChain]
  | .primitive p [] t => walkChain_leaf (by simp [Expression.isLeaf]) cursor chain
  | .var s t => walkChain_leaf (by simp [Expression.isLeaf]) cursor chain
  | .literal l t => walkChain_leaf (by simp [Expression.isLeaf]) cursor chain
  | .apply f a t => walkChain_leaf (by simp [Expression.isLeaf]) cursor chain
  | .closure c p r b t => walkChain_leaf (by simp [Expression.isLeaf]) cursor chain
  | .letIn s bt v b t => walkChain_leaf (by simp [Expression.isLeaf]) cursor chain
  | .conditional c a b t => walkChain_leaf (by simp [Expression.isLeaf]) cursor chain
termination_by expression => sizeOf expression

/-- A primitive evaluates its first operand and is completed from it. -/
theorem atomize_primitive (cursor : Cursor) (p : CorePrimitive) (f : Expression)
    (r : List Expression) (t : NativeType) :
    atomize cursor (.primitive p (f :: r) t) =
      completeFirstOperand (atomize cursor f).2 ⟨p, r, t⟩ (atomize cursor f).1 := by
  rw [atomize, walkChain, walkChain_eq, completeChain]
  · simp [completeChain]
  · simp

theorem completeFirstOperand_some {right : Expression}
    (h : link.shortCircuitOperand? = some right) (cursor : Cursor) (first : Atom) :
    completeFirstOperand cursor link first =
      finishShortCircuit cursor link.primitive first right := by
  rw [completeFirstOperand]
  split
  · next other hother => rw [h] at hother; cases hother; rfl
  · next hnone => rw [h] at hnone; cases hnone

theorem completeFirstOperand_none (h : link.shortCircuitOperand? = none) (cursor : Cursor) (first : Atom) :
    completeFirstOperand cursor link first =
      bindTemporary (primitiveOperation cursor link first).2 link.type
        (primitiveOperation cursor link first).1 := by
  rw [completeFirstOperand]
  split
  · next other hother => rw [h] at hother; cases hother
  · rfl

/-- The walk along false arms completes the conditionals already open. -/
theorem atomizeFalseArm_eq (cursor : Cursor) (conditionals : List OpenConditional) :
    ∀ expression : Expression, atomizeFalseArm cursor conditionals expression =
      endConditionals (atomize cursor expression).2 (atomize cursor expression).1 conditionals
  | .conditional c a b t => by
      rw [atomizeFalseArm, atomize_leaf (by simp [Expression.isLeaf]), atomizeLeaf]
      simp only
      rw [atomizeFalseArm_eq _ _ b, atomizeFalseArm_eq _ _ b, endConditionals]
      simp [endConditionals]
  | .primitive p operands t => by rw [atomizeFalseArm]; simp
  | .var s t => by rw [atomizeFalseArm]; simp
  | .literal l t => by rw [atomizeFalseArm]; simp
  | .apply f a t => by rw [atomizeFalseArm]; simp
  | .closure c p r b t => by rw [atomizeFalseArm]; simp
  | .letIn s bt v b t => by rw [atomizeFalseArm]; simp

/-- A conditional opens its slot, evaluates its false arm and ends in the join. -/
theorem atomize_conditional (cursor : Cursor) (c a b : Expression) (t : NativeType) :
    atomize cursor (.conditional c a b t) =
      let begun := beginConditional cursor c a t
      let arm := atomize begun.2 b
      endConditional arm.2 begun.1 arm.1 := by
  rw [atomize_leaf (by simp [Expression.isLeaf]), atomizeLeaf]
  simp only
  rw [atomizeFalseArm_eq, endConditionals]
  simp [endConditionals]

/-! ## Statements -/

/-- **The `else if` walk**: the false branch is an ordinary region, then the joins are completed. -/
theorem walkConditionalChain_eq (cursor : Cursor) (falseId join : Nat) (joins : List Nat) :
    ∀ falseBranch : List Statement, walkConditionalChain cursor falseId (join :: joins) falseBranch =
      completeJoins ((prepareBranchRegion cursor falseId join
        (fun cursor => prepareStatements cursor falseBranch)).openAt join) joins
  | [.cond e t f] => by
      rw [walkConditionalChain, prepareBranchRegion]
      simp only [prepareStatements, prepareStatement]
      rw [walkConditionalChain_eq _ _ _ _ f, walkConditionalChain_eq _ _ _ _ f]
      simp only [completeJoins]
  | [] => by rw [walkConditionalChain]; simp; simp
  | [.bind _ _ _ _] | [.assign _ _] | [.ret _] | [.evaluate _] | [.whileLoop _ _]
  | [.doWhile _ _] | [.forLoop _ _ _] | [.breakLoop] | [.continueLoop] => by
      rw [walkConditionalChain]; simp; simp
  | _ :: _ :: _ => by rw [walkConditionalChain]; simp; simp

/-- An `if` prepares both branches as regions and continues in its join. -/
theorem prepareStatement_cond (cursor : Cursor) (e : Expression) (t f : List Statement) :
    prepareStatement cursor (.cond e t f) =
      let branched := branchToNewBlocks cursor e
      let afterTrue := prepareBranchRegion branched.2 branched.1 (branched.1 + 2)
        (fun cursor => prepareStatements cursor t)
      (prepareBranchRegion afterTrue (branched.1 + 1) (branched.1 + 2)
        (fun cursor => prepareStatements cursor f)).openAt (branched.1 + 2) := by
  rw [prepareStatement]
  simp only [walkConditionalChain_eq, completeJoins]

/-! ## The symbol scan -/

theorem maximumSymbol_append (left right : List ResolvedName) :
    maximumSymbol (left ++ right) = max (maximumSymbol left) (maximumSymbol right) := by
  induction left with
  | nil =>
      have := maximumSymbol_nonneg right
      simp only [List.nil_append, maximumSymbol, List.foldr_nil] at this ⊢
      omega
  | cons name rest ih =>
      simp only [maximumSymbol, List.cons_append, List.foldr_cons] at ih ⊢
      omega

theorem maximumSymbol_cons (name : ResolvedName) (names : List ResolvedName) :
    maximumSymbol (name :: names) = max name.resolvedSymbol (maximumSymbol names) := rfl

@[simp] theorem maximumSymbol_nil : maximumSymbol [] = 0 := rfl

theorem maximumSymbol_le {names : List ResolvedName} {bound : Int} :
    maximumSymbol names ≤ bound ↔ 0 ≤ bound ∧ ∀ name ∈ names, name.resolvedSymbol ≤ bound := by
  induction names with
  | nil => simp
  | cons name rest ih =>
      rw [maximumSymbol_cons, max_le_iff, ih, List.forall_mem_cons]
      tauto

/-- Only membership decides the highest symbol. -/
theorem maximumSymbol_congr {left right : List ResolvedName}
    (h : ∀ name, name ∈ left ↔ name ∈ right) : maximumSymbol left = maximumSymbol right :=
  eq_of_forall_ge_iff fun bound => by simp only [maximumSymbol_le, h]

/-- Folding the maximum over names takes their highest symbol. -/
theorem foldl_max_symbol {α : Type} (name : α → ResolvedName) (values : List α) (h : 0 ≤ highest) :
    values.foldl (fun best value => max best (name value).resolvedSymbol) highest =
      max highest (maximumSymbol (values.map name)) := by
  induction values generalizing highest with
  | nil => simp only [List.foldl_nil, List.map_nil, maximumSymbol, List.foldr_nil]; omega
  | cons value rest ih =>
      rw [List.foldl_cons, ih (by omega), List.map_cons, maximumSymbol_cons]
      omega

/-- The names an expression holds itself. -/
def ownNames : CoreExpression → List ResolvedName
  | .coreVariable name _ => [name]
  | .coreLet name _ _ _ _ => [name]
  | .coreClosure captures parameters _ _ _ =>
      captures.map CoreCapture.coreCaptureName ++ parameters.map Prod.fst
  | _ => []

/-- The expressions directly inside an expression. -/
def nestedExpressions : CoreExpression → List CoreExpression
  | .coreApply callee arguments _ => callee :: arguments
  | .corePrimitive _ arguments _ => arguments
  | .coreConditional condition whenTrue whenFalse _ => [condition, whenTrue, whenFalse]
  | .coreClosure captures _ _ _ _ => captures.map CoreCapture.coreCaptureValue
  | .coreLet _ _ value body _ => [value, body]
  | _ => []

/-- The statements directly inside an expression. -/
def nestedBody : CoreExpression → List CoreStatement
  | .coreClosure _ _ _ body _ => body
  | _ => []

theorem coreCapturesSymbols_eq (captures : List CoreCapture) :
    coreCapturesSymbols captures =
      coreExpressionsSymbols (captures.map CoreCapture.coreCaptureValue) := by
  induction captures with
  | nil => simp [coreCapturesSymbols, coreExpressionsSymbols]
  | cons capture rest ih =>
      obtain ⟨_, _, _, value⟩ := capture
      simp only [coreCapturesSymbols, List.map_cons, CoreCapture.coreCaptureValue,
        coreExpressionsSymbols, ih]

/-- The symbols of an expression are its own and those of its parts. -/
theorem maximumSymbol_expression (expression : CoreExpression) :
    maximumSymbol (coreExpressionSymbols expression) =
      max (maximumSymbol (ownNames expression))
        (max (maximumSymbol (coreExpressionsSymbols (nestedExpressions expression)))
          (maximumSymbol (coreStatementsSymbols (nestedBody expression)))) := by
  rw [← maximumSymbol_append, ← maximumSymbol_append]
  refine maximumSymbol_congr fun name => ?_
  cases expression <;>
    simp only [coreExpressionSymbols, ownNames, nestedExpressions, nestedBody,
      coreExpressionsSymbols, coreStatementsSymbols, coreCapturesSymbols_eq, List.mem_append,
      List.mem_cons, List.not_mem_nil, or_false, false_or] <;>
    tauto

/-- The name a statement holds itself. -/
def ownName : CoreStatement → List ResolvedName
  | .coreBind name _ _ _ => [name]
  | .coreAssign name _ => [name]
  | _ => []

/-- The expression directly inside a statement. -/
def heldExpression : CoreStatement → List CoreExpression
  | .coreBind _ _ _ value => [value]
  | .coreAssign _ value => [value]
  | .coreReturn value => [value]
  | .coreIf condition _ _ => [condition]
  | .coreEvaluate value => [value]
  | .coreWhile condition _ => [condition]
  | .coreDoWhile _ condition => [condition]
  | .coreFor condition _ _ => [condition]
  | .coreBreak => []
  | .coreContinue => []

/-- The statements directly inside a statement. -/
def nestedStatements : CoreStatement → List CoreStatement
  | .coreIf _ whenTrue whenFalse => whenTrue ++ whenFalse
  | .coreWhile _ body => body
  | .coreDoWhile body _ => body
  | .coreFor _ body update => body ++ update
  | _ => []

theorem coreStatementsSymbols_append (left right : List CoreStatement) :
    coreStatementsSymbols (left ++ right) =
      coreStatementsSymbols left ++ coreStatementsSymbols right := by
  induction left with
  | nil => simp [coreStatementsSymbols]
  | cons statement rest ih => simp [coreStatementsSymbols, ih]

theorem coreExpressionsSymbols_append (left right : List CoreExpression) :
    coreExpressionsSymbols (left ++ right) =
      coreExpressionsSymbols left ++ coreExpressionsSymbols right := by
  induction left with
  | nil => simp [coreExpressionsSymbols]
  | cons expression rest ih => simp [coreExpressionsSymbols, ih]

theorem maximumSymbol_statement (statement : CoreStatement) :
    maximumSymbol (coreStatementSymbols statement) =
      max (maximumSymbol (ownName statement))
        (max (maximumSymbol (coreExpressionsSymbols (heldExpression statement)))
          (maximumSymbol (coreStatementsSymbols (nestedStatements statement)))) := by
  rw [← maximumSymbol_append, ← maximumSymbol_append]
  refine maximumSymbol_congr fun name => ?_
  cases statement <;>
    simp only [coreStatementSymbols, ownName, heldExpression, nestedStatements,
      coreExpressionsSymbols, coreStatementsSymbols, coreStatementsSymbols_append, List.mem_append,
      List.mem_cons, List.not_mem_nil, or_false, false_or] <;>
    tauto

/-- The order of a stack does not matter for its highest symbol. -/
theorem maximumSymbol_reverse_expressions (expressions : List CoreExpression) :
    maximumSymbol (coreExpressionsSymbols expressions.reverse) =
      maximumSymbol (coreExpressionsSymbols expressions) := by
  induction expressions with
  | nil => rfl
  | cons expression rest ih =>
      simp only [List.reverse_cons, coreExpressionsSymbols_append, coreExpressionsSymbols,
        maximumSymbol_append, ih, List.append_nil]
      omega

theorem maximumSymbol_reverse_statements (statements : List CoreStatement) :
    maximumSymbol (coreStatementsSymbols statements.reverse) =
      maximumSymbol (coreStatementsSymbols statements) := by
  induction statements with
  | nil => rfl
  | cons statement rest ih =>
      simp only [List.reverse_cons, coreStatementsSymbols_append, coreStatementsSymbols,
        maximumSymbol_append, ih, List.append_nil]
      omega

section Scan

variable {spelling : Spelling}

theorem ofCoreMany_eq_map (expressions : List CoreExpression) :
    Expression.ofCoreMany spelling expressions = expressions.map (Expression.ofCore spelling) := by
  induction expressions with
  | nil => simp [Expression.ofCoreMany]
  | cons e es ih => simp [Expression.ofCoreMany, ih]

theorem statements_ofCoreMany_eq_map (statements : List CoreStatement) :
    Statement.ofCoreMany spelling statements = statements.map (Statement.ofCore spelling) := by
  induction statements with
  | nil => simp [Statement.ofCoreMany]
  | cons s ss ih => simp [Statement.ofCoreMany, ih]

theorem captures_map_value (captures : List CoreCapture) :
    (Capture.ofCoreMany spelling captures).map Capture.value =
      (captures.map CoreCapture.coreCaptureValue).map (Expression.ofCore spelling) := by
  induction captures with
  | nil => simp [Capture.ofCoreMany]
  | cons capture rest ih =>
      obtain ⟨_, _, _, value⟩ := capture
      simp only [Capture.ofCoreMany, List.map_cons, ih]
      rfl

theorem captures_map_symbol (captures : List CoreCapture) :
    (Capture.ofCoreMany spelling captures).map Capture.symbol =
      captures.map CoreCapture.coreCaptureName := by
  induction captures with
  | nil => simp [Capture.ofCoreMany]
  | cons capture rest ih =>
      obtain ⟨_, _, _, value⟩ := capture
      simp only [Capture.ofCoreMany, List.map_cons, ih]
      rfl

theorem nested_ofCore (expression : CoreExpression) :
    (Expression.ofCore spelling expression).nested =
      (nestedExpressions expression).map (Expression.ofCore spelling) := by
  cases expression <;>
    simp [Expression.ofCore, Expression.nested, nestedExpressions, ofCoreMany_eq_map,
      captures_map_value]

theorem nestedStatements_ofCore (expression : CoreExpression) :
    (Expression.ofCore spelling expression).nestedStatements =
      (nestedBody expression).map (Statement.ofCore spelling) := by
  cases expression <;>
    simp [Expression.ofCore, Expression.nestedStatements, nestedBody, statements_ofCoreMany_eq_map]

theorem highest_ofCore (expression : CoreExpression) (h : 0 ≤ highest) :
    (Expression.ofCore spelling expression).highest highest =
      max highest (maximumSymbol (ownNames expression)) := by
  cases expression with
  | coreClosure captures parameters returnType body valueType =>
      have hparameters : (parameters.map Parameter.ofCore).map Prod.fst = parameters.map Prod.fst := by
        simp [Parameter.ofCore]
      simp only [Expression.ofCore, Expression.highest, ownNames]
      rw [foldl_max_symbol Capture.symbol _ h, captures_map_symbol,
        foldl_max_symbol Prod.fst _ (by omega), hparameters, maximumSymbol_append]
      omega
  | _ =>
      simp only [Expression.ofCore, Expression.highest, ownNames, maximumSymbol_cons,
        maximumSymbol_nil]
      omega

theorem statement_nested_ofCore (statement : CoreStatement) :
    (Statement.ofCore spelling statement).nested =
      (heldExpression statement).map (Expression.ofCore spelling) := by
  cases statement <;> simp [Statement.ofCore, Statement.nested, heldExpression]

theorem statement_nestedStatements_ofCore (statement : CoreStatement) :
    (Statement.ofCore spelling statement).nestedStatements =
      (nestedStatements statement).map (Statement.ofCore spelling) := by
  cases statement <;>
    simp [Statement.ofCore, Statement.nestedStatements, nestedStatements,
      statements_ofCoreMany_eq_map]

theorem statement_highest_ofCore (statement : CoreStatement) (h : 0 ≤ highest) :
    (Statement.ofCore spelling statement).highest highest =
      max highest (maximumSymbol (ownName statement)) := by
  cases statement <;>
    simp only [Statement.ofCore, Statement.highest, ownName, maximumSymbol_cons,
      maximumSymbol_nil] <;> omega

theorem pushAll_map {α β : Type} (f : α → β) (values stack : List α) :
    pushAll (values.map f) (stack.map f) = (values.reverse ++ stack).map f := by
  simp [pushAll]

/-- **The worklist scan takes the highest symbol** of everything on its stacks. -/
theorem scanSymbols_ofCore (spelling : Spelling) (statements : List CoreStatement)
    (expressions : List CoreExpression) (highest : Int) (h : 0 ≤ highest) :
    scanSymbols (statements.map (Statement.ofCore spelling))
        (expressions.map (Expression.ofCore spelling)) highest =
      max highest (max (maximumSymbol (coreStatementsSymbols statements))
        (maximumSymbol (coreExpressionsSymbols expressions))) := by
  match expressions, statements with
  | expression :: expressions, statements =>
      have ih := scanSymbols_ofCore spelling ((nestedBody expression).reverse ++ statements)
        ((nestedExpressions expression).reverse ++ expressions)
        (max highest (maximumSymbol (ownNames expression))) (by omega)
      rw [List.map_cons, scanSymbols, nested_ofCore, nestedStatements_ofCore, highest_ofCore _ h,
        pushAll_map, pushAll_map, ih, coreStatementsSymbols_append, coreExpressionsSymbols_append,
        maximumSymbol_append, maximumSymbol_append, maximumSymbol_reverse_expressions,
        maximumSymbol_reverse_statements, coreExpressionsSymbols, maximumSymbol_append,
        maximumSymbol_expression]
      ac_rfl
  | [], statement :: statements =>
      have ih := scanSymbols_ofCore spelling ((nestedStatements statement).reverse ++ statements)
        (heldExpression statement).reverse
        (max highest (maximumSymbol (ownName statement))) (by omega)
      have hpush : pushAll ((heldExpression statement).map (Expression.ofCore spelling)) [] =
          (heldExpression statement).reverse.map (Expression.ofCore spelling) := by simp [pushAll]
      rw [List.map_cons, List.map_nil, scanSymbols, statement_nested_ofCore,
        statement_nestedStatements_ofCore, statement_highest_ofCore _ h, pushAll_map, hpush, ih,
        coreStatementsSymbols_append, maximumSymbol_append, maximumSymbol_reverse_expressions,
        maximumSymbol_reverse_statements, coreStatementsSymbols, maximumSymbol_append,
        maximumSymbol_statement, coreExpressionsSymbols, maximumSymbol_nil]
      rw [max_comm _ 0, ← max_assoc highest 0, max_eq_left h]
      ac_rfl
  | [], [] =>
      rw [List.map_nil, List.map_nil, scanSymbols, coreStatementsSymbols, coreExpressionsSymbols]
      have : maximumSymbol [] = 0 := rfl
      omega
termination_by
  stackWeight (statements.map (Statement.ofCore spelling)) +
    stackWeight (expressions.map (Expression.ofCore spelling))
decreasing_by
  · simp only [List.map_append, List.map_reverse, List.map_cons, stackWeight_append,
      stackWeight_cons]
    have hlt := (Expression.ofCore spelling expression).nested_lt
    rw [nested_ofCore, nestedStatements_ofCore] at hlt
    have h1 := stackWeight_pushAll ((nestedBody expression).map (Statement.ofCore spelling)) []
    have h2 := stackWeight_pushAll ((nestedExpressions expression).map (Expression.ofCore spelling)) []
    simp only [pushAll, List.append_nil] at h1 h2
    have h3 : stackWeight ([] : List Statement) = 0 := rfl
    have h4 : stackWeight ([] : List Expression) = 0 := rfl
    omega
  · simp only [List.map_append, List.map_reverse, List.map_cons, List.map_nil, stackWeight_append,
      stackWeight_cons]
    have hlt := (Statement.ofCore spelling statement).nested_lt
    rw [statement_nested_ofCore, statement_nestedStatements_ofCore] at hlt
    have h1 := stackWeight_pushAll ((nestedStatements statement).map (Statement.ofCore spelling)) []
    have h2 := stackWeight_pushAll ((heldExpression statement).map (Expression.ofCore spelling)) []
    simp only [pushAll, List.append_nil] at h1 h2
    have h3 : stackWeight ([] : List Statement) = 0 := rfl
    have h4 : stackWeight ([] : List Expression) = 0 := rfl
    omega

/-- The scan of a function finds the highest of its symbols. -/
theorem highestFunctionSymbol_ofCore (spelling : Spelling) (function : CoreFunction) (sourceFile : String)
    (h : 0 ≤ function.symbol) :
    highestFunctionSymbol (Function.ofCore spelling (function, sourceFile)) =
      maximumSymbol (coreFunctionSymbols function) := by
  have hparameters : (function.coreFunctionParameters.map Parameter.ofCore).map Prod.fst =
      function.coreFunctionParameters.map Prod.fst := by simp [Parameter.ofCore]
  have hpush : pushAll (Statement.ofCoreMany spelling function.coreFunctionBody) [] =
      function.coreFunctionBody.reverse.map (Statement.ofCore spelling) := by
    simp [pushAll, statements_ofCoreMany_eq_map]
  have hname : 0 ≤ function.coreFunctionName.resolvedSymbol := h
  have hscan := scanSymbols_ofCore spelling function.coreFunctionBody.reverse []
    (max function.coreFunctionName.resolvedSymbol
      (maximumSymbol (function.coreFunctionParameters.map Prod.fst))) (by omega)
  simp only [highestFunctionSymbol, Function.ofCore]
  rw [hpush, foldl_max_symbol Prod.fst _ hname, hparameters]
  rw [List.map_nil] at hscan
  rw [hscan, maximumSymbol_reverse_statements, coreFunctionSymbols, maximumSymbol_cons,
    maximumSymbol_append, coreExpressionsSymbols]
  have : maximumSymbol [] = 0 := rfl
  omega

end Scan

end Tala.Native
