import Tala.Core.Optimizer.IntegerFacts

/-!
# `Core.Optimizer.LoopFacts` — path facts across statements and loops

The facts after a statement are kept apart by how it ends: it proceeds, breaks, continues or returns. A loop
is summarized by an ascending iteration over the facts at its header; bounds that move are dropped, and an
iteration that does not settle within its rounds gives way to a summary from no facts at all.

The analyses recurse over the statements. What the source passes to its solver as a function from header
facts is the step of the loop here.
-/

namespace Tala.Core.Optimizer

open Tala Tala.Core Tala.Library IntegerFacts

instance : DecidableEq IntegerFacts := fun left right =>
  match left, right with
  | reachableFacts left, reachableFacts right =>
      if h : left = right then isTrue (congrArg reachableFacts h)
      else isFalse fun heq => h (IntegerFacts.reachableFacts.inj heq)
  | unreachableFacts, unreachableFacts => isTrue rfl
  | reachableFacts _, unreachableFacts => isFalse nofun
  | unreachableFacts, reachableFacts _ => isFalse nofun

/-! ## Widening -/

/-- A lower bound that moves down is dropped. -/
def widenLower : Option Int → Option Int → Option Int
  | some old, some new => if new ≥ old then some old else none
  | _, _ => none

/-- An upper bound that moves up is dropped. -/
def widenUpper : Option Int → Option Int → Option Int
  | some old, some new => if new ≤ old then some old else none
  | _, _ => none

def widenIntegerFact (previous next : IntegerFact) : IntegerFact where
  integerMinimum := widenLower previous.integerMinimum next.integerMinimum
  integerMaximum := widenUpper previous.integerMaximum next.integerMaximum
  integerExcludesZero := previous.integerExcludesZero && next.integerExcludesZero

/-- Widen an ascending sequence of facts; a fact missing from either state is discarded. -/
def widenIntegerFacts : IntegerFacts → IntegerFacts → IntegerFacts
  | unreachableFacts, next => next
  | previous, unreachableFacts => previous
  | reachableFacts previous, reachableFacts next =>
      reachableFacts (previous.intersectWith (fun _ => widenIntegerFact) next)

/-! ## Flows -/

/-- The facts on the edges that leave a statement. -/
structure StatementFlowFacts where
  flowNormalFacts : IntegerFacts
  flowBreakFacts : IntegerFacts
  flowContinueFacts : IntegerFacts
  flowReturnFacts : IntegerFacts

open StatementFlowFacts

def unreachableFlow : StatementFlowFacts where
  flowNormalFacts := unreachableFacts
  flowBreakFacts := unreachableFacts
  flowContinueFacts := unreachableFacts
  flowReturnFacts := unreachableFacts

def normalFlow (facts : IntegerFacts) : StatementFlowFacts :=
  { unreachableFlow with
    flowNormalFacts := facts }

def joinFlowFacts (left right : StatementFlowFacts) : StatementFlowFacts where
  flowNormalFacts := joinIntegerFacts left.flowNormalFacts right.flowNormalFacts
  flowBreakFacts := joinIntegerFacts left.flowBreakFacts right.flowBreakFacts
  flowContinueFacts := joinIntegerFacts left.flowContinueFacts right.flowContinueFacts
  flowReturnFacts := joinIntegerFacts left.flowReturnFacts right.flowReturnFacts

/-- The edges of a block: a statement, and what comes after it when it proceeds. -/
def sequenceFlow (current later : StatementFlowFacts) : StatementFlowFacts where
  flowNormalFacts := later.flowNormalFacts
  flowBreakFacts := joinIntegerFacts current.flowBreakFacts later.flowBreakFacts
  flowContinueFacts := joinIntegerFacts current.flowContinueFacts later.flowContinueFacts
  flowReturnFacts := joinIntegerFacts current.flowReturnFacts later.flowReturnFacts

/-! ## The solver -/

structure LoopFactSummary where
  loopHeaderFacts : IntegerFacts
  loopConditionFacts : IntegerFacts
  loopBodyFacts : IntegerFacts
  loopUpdateFacts : IntegerFacts
  loopExitFacts : IntegerFacts
  loopReturnFacts : IntegerFacts
  loopFixedPointIterations : Nat
  loopAnalysisWidened : Bool

/-- What one pass over a loop finds for given facts at its header. -/
structure LoopStep where
  stepConditionFacts : IntegerFacts
  stepBodyFacts : IntegerFacts
  stepUpdateFacts : IntegerFacts
  stepBackEdgeFacts : IntegerFacts
  stepExitFacts : IntegerFacts
  stepReturnFacts : IntegerFacts

def loopIterationLimit : Nat := 8

/-- How many levels of nested loops are iterated to a fixed point. -/
def iteratedLoopNesting : Nat := 2

def summarize (rounds : Nat) (widened : Bool) (header : IntegerFacts) (step : LoopStep) : LoopFactSummary where
  loopHeaderFacts := header
  loopConditionFacts := step.stepConditionFacts
  loopBodyFacts := step.stepBodyFacts
  loopUpdateFacts := step.stepUpdateFacts
  loopExitFacts := step.stepExitFacts
  loopReturnFacts := step.stepReturnFacts
  loopFixedPointIterations := rounds
  loopAnalysisWidened := widened

def conservativeSummary (step : IntegerFacts → LoopStep) (rounds : Nat) : LoopFactSummary :=
  summarize rounds true emptyIntegerFacts (step emptyIntegerFacts)

/-- Rounds from `rounds` on; the limit is below only for as many rounds as are left. -/
def iterateHeader (step : IntegerFacts → LoopStep) (rounds : Nat) (header : IntegerFacts) : LoopFactSummary :=
  let current := step header
  let candidate := joinIntegerFacts header current.stepBackEdgeFacts
  let widened := widenIntegerFacts header candidate
  let nextRound := rounds + 1
  if widened = header then summarize nextRound false header current
  else if nextRound ≥ loopIterationLimit then conservativeSummary step nextRound
  else iterateHeader step nextRound widened
termination_by loopIterationLimit - rounds

def solveLoop (input : IntegerFacts) (step : IntegerFacts → LoopStep) : LoopFactSummary :=
  match input with
  | unreachableFacts => summarize 0 false unreachableFacts (step unreachableFacts)
  | entry => iterateHeader step 0 entry

/-- A loop around a nest that is deep enough is summarized in one pass from the state that assumes nothing. -/
def solve (nestingHeight : Nat) (input : IntegerFacts) (step : IntegerFacts → LoopStep) : LoopFactSummary :=
  if nestingHeight ≥ iteratedLoopNesting then summarize 1 true emptyIntegerFacts (step emptyIntegerFacts)
  else solveLoop input step

/-! ## Loops -/

mutual

/-- The deepest nest of loops in the statements. -/
def loopNestingHeight : List CoreStatement → Nat
  | [] => 0
  | statement :: remaining => max (statementHeight statement) (loopNestingHeight remaining)

def statementHeight : CoreStatement → Nat
  | .coreIf _ whenTrue whenFalse => max (loopNestingHeight whenTrue) (loopNestingHeight whenFalse)
  | .coreWhile _ body => 1 + loopNestingHeight body
  | .coreDoWhile body _ => 1 + loopNestingHeight body
  | .coreFor _ body update => 1 + max (loopNestingHeight body) (loopNestingHeight update)
  | _ => 0

end

section Steps

variable (condition : CoreExpression) (body : IntegerFacts → StatementFlowFacts)

/-- One pass over a loop that tests first; `update` is missing where the source has an empty one. -/
def whileStep (update : Option (IntegerFacts → StatementFlowFacts)) (header : IntegerFacts) : LoopStep :=
  let conditionTrue := refineConditionFacts true condition header
  let conditionFalse := refineConditionFacts false condition header
  let bodyFlow := body conditionTrue
  let updateInput := joinIntegerFacts bodyFlow.flowNormalFacts bodyFlow.flowContinueFacts
  let updateFlow := update.elim (normalFlow updateInput) fun update => update updateInput
  let loopBackEdge := update.elim updateInput fun _ =>
    joinIntegerFacts updateFlow.flowNormalFacts updateFlow.flowContinueFacts
  let exits := joinIntegerFacts conditionFalse
    (joinIntegerFacts bodyFlow.flowBreakFacts updateFlow.flowBreakFacts)
  let returns := joinIntegerFacts bodyFlow.flowReturnFacts updateFlow.flowReturnFacts
  { stepConditionFacts := header
    stepBodyFacts := conditionTrue
    stepUpdateFacts := update.elim unreachableFacts fun _ => updateInput
    stepBackEdgeFacts := loopBackEdge
    stepExitFacts := exits
    stepReturnFacts := returns }

def doWhileStep (header : IntegerFacts) : LoopStep :=
  let bodyFlow := body header
  let conditionInput := joinIntegerFacts bodyFlow.flowNormalFacts bodyFlow.flowContinueFacts
  let conditionTrue := refineConditionFacts true condition conditionInput
  let conditionFalse := refineConditionFacts false condition conditionInput
  { stepConditionFacts := conditionInput
    stepBodyFacts := header
    stepUpdateFacts := unreachableFacts
    stepBackEdgeFacts := conditionTrue
    stepExitFacts := joinIntegerFacts bodyFlow.flowBreakFacts conditionFalse
    stepReturnFacts := bodyFlow.flowReturnFacts }

end Steps

/-- A loop proceeds or returns; it takes the breaks and continues of its body itself. -/
def loopNormalFlow (summary : LoopFactSummary) : StatementFlowFacts :=
  { unreachableFlow with
    flowNormalFacts := summary.loopExitFacts
    flowReturnFacts := summary.loopReturnFacts }

/-- The fact of a value that is written; a value that calls something has none. -/
def writtenFact (facts : IntegerFacts) (value : CoreExpression) : Option IntegerFact :=
  if expressionInvokesCallable value then none else factOfIntegerExpression facts value

mutual

def analyzeStatementFlow (facts : IntegerFacts) (statement : CoreStatement) : StatementFlowFacts :=
  match facts with
  | unreachableFacts => unreachableFlow
  | reachableFacts _ =>
      match statement with
      | .coreBind name type _ value =>
          let afterValue := transferExpressionFacts facts value
          let known := if isCoreIntegerType type then writtenFact facts value else none
          normalFlow (setIntegerFact afterValue name.resolvedSymbol known)
      | .coreAssign name value =>
          let afterValue := transferExpressionFacts facts value
          normalFlow (setIntegerFact afterValue name.resolvedSymbol (writtenFact facts value))
      | .coreReturn value =>
          { unreachableFlow with
            flowReturnFacts := transferExpressionFacts facts value }
      | .coreEvaluate value => normalFlow (transferExpressionFacts facts value)
      | .coreIf condition whenTrue whenFalse =>
          joinFlowFacts (analyzeSequenceFlow (refineConditionFacts true condition facts) whenTrue)
            (analyzeSequenceFlow (refineConditionFacts false condition facts) whenFalse)
      | .coreWhile condition body =>
          loopNormalFlow (solve (loopNestingHeight body) facts
            (whileStep condition (fun input => analyzeSequenceFlow input body) none))
      | .coreDoWhile body condition =>
          loopNormalFlow (solve (loopNestingHeight body) facts
            (doWhileStep condition (fun input => analyzeSequenceFlow input body)))
      | .coreFor condition body update =>
          loopNormalFlow (solve (loopNestingHeight (body ++ update)) facts
            (whileStep condition (fun input => analyzeSequenceFlow input body)
              (if update.isEmpty then none else some fun input => analyzeSequenceFlow input update)))
      | .coreBreak =>
          { unreachableFlow with
            flowBreakFacts := facts }
      | .coreContinue =>
          { unreachableFlow with
            flowContinueFacts := facts }
termination_by structural statement

/-- Statements in order; what ends abruptly is kept apart from what proceeds. -/
def analyzeSequenceFlow (facts : IntegerFacts) (statements : List CoreStatement) : StatementFlowFacts :=
  match statements with
  | [] => normalFlow facts
  | statement :: remaining =>
      let current := analyzeStatementFlow facts statement
      sequenceFlow current (analyzeSequenceFlow current.flowNormalFacts remaining)
termination_by structural statements

end

/-- Summary of a loop for given facts at its entry. -/
def loopFactSummary (input : IntegerFacts) : CoreStatement → Option LoopFactSummary
  | .coreWhile condition body =>
      some (solve (loopNestingHeight body) input
        (whileStep condition (fun facts => analyzeSequenceFlow facts body) none))
  | .coreDoWhile body condition =>
      some (solve (loopNestingHeight body) input
        (doWhileStep condition (fun facts => analyzeSequenceFlow facts body)))
  | .coreFor condition body update =>
      some (solve (loopNestingHeight (body ++ update)) input
        (whileStep condition (fun facts => analyzeSequenceFlow facts body)
          (if update.isEmpty then none else some fun facts => analyzeSequenceFlow facts update)))
  | _ => none

def transferStatementFacts (facts : IntegerFacts) (statement : CoreStatement) : IntegerFacts :=
  (analyzeStatementFlow facts statement).flowNormalFacts

end Tala.Core.Optimizer
