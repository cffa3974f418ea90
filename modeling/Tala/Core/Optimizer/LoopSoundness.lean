import Tala.Core.Optimizer.FactSoundness
import Tala.Core.Optimizer.LoopFacts

/-!
# `Core.Optimizer.LoopSoundness` — path facts are sound across statements and loops

A run of a loop passes a test and the start of its body again and again; `Arrives` says with which stores.
`Solved` is what the solver promises of its summary: the header holds at the entry and takes in its own back
edge. Soundness of the flow analyses is by recursion over the statements: a statement that ends along some
edge leaves a store that the facts of that edge describe.
-/

namespace Tala.Core.Optimizer

open Tala Tala.Core Tala.Library IntegerFacts StatementFlowFacts

/-! ## Widening -/

section Widening

variable {φ : Type} {locals : Locals φ} {previous next : IntegerFact} {n : Int}

theorem widenLower_le {old new : Option Int} (h : new.all (· ≤ n) = true) :
    (widenLower old new).all (· ≤ n) = true := by
  cases old with
  | none => rfl
  | some old =>
      cases new with
      | none => rfl
      | some new =>
          simp only [Option.all_some, decide_eq_true_eq] at h
          rw [widenLower]
          split
          · simp only [Option.all_some, decide_eq_true_eq]
            omega
          · rfl

theorem le_widenUpper {old new : Option Int} (h : new.all (· ≥ n) = true) :
    (widenUpper old new).all (· ≥ n) = true := by
  cases old with
  | none => rfl
  | some old =>
      cases new with
      | none => rfl
      | some new =>
          simp only [Option.all_some, decide_eq_true_eq] at h
          rw [widenUpper]
          split
          · simp only [Option.all_some, decide_eq_true_eq]
            omega
          · rfl

theorem widenIntegerFact_contains (h : factContains next n = true) :
    factContains (widenIntegerFact previous next) n = true := by
  simp only [factContains, Bool.and_eq_true] at h ⊢
  obtain ⟨⟨hlower, hupper⟩, hzero⟩ := h
  refine ⟨⟨widenLower_le hlower, le_widenUpper hupper⟩, ?_⟩
  show (!(decide (n = 0) && (previous.integerExcludesZero && next.integerExcludesZero))) = true
  cases previous.integerExcludesZero <;> simp_all

/-- Widening only forgets. -/
theorem IntegerFacts.Describes.widen (previous : IntegerFacts) {next : IntegerFacts}
    (h : next.Describes locals) : (widenIntegerFacts previous next).Describes locals := by
  obtain ⟨entries, rfl⟩ := h.reachable
  cases previous with
  | unreachableFacts => exact h
  | reachableFacts earlier =>
      intro symbol fact hfind
      rw [SortedMap.find_intersectWith] at hfind
      obtain ⟨first, -, hfind⟩ := Option.bind_eq_some_iff.mp hfind
      obtain ⟨second, hsecond, rfl⟩ := Option.map_eq_some_iff.mp hfind
      obtain ⟨value, hvalue, hcontains⟩ := h symbol second hsecond
      exact ⟨value, hvalue, widenIntegerFact_contains hcontains⟩

end Widening

/-! ## What the solver promises -/

/-- **A solved loop**: the facts at the header hold on entry and on the back edge, and the others are those of
one pass from the header. -/
structure Solved (input : IntegerFacts) (step : IntegerFacts → LoopStep) (summary : LoopFactSummary) : Prop where
  onePass : ∃ rounds widened, summary = summarize rounds widened summary.loopHeaderFacts
    (step summary.loopHeaderFacts)
  entry : ∀ {φ : Type} {locals : Locals φ}, input.Describes locals → summary.loopHeaderFacts.Describes locals
  backEdge : ∀ {φ : Type} {locals : Locals φ}, (step summary.loopHeaderFacts).stepBackEdgeFacts.Describes locals →
    summary.loopHeaderFacts.Describes locals

section Solver

variable {input header : IntegerFacts} {step : IntegerFacts → LoopStep}

/-- No facts describe every store, whatever the loop does. -/
theorem solved_empty (rounds : Nat) (widened : Bool) :
    Solved input step (summarize rounds widened emptyIntegerFacts (step emptyIntegerFacts)) where
  onePass := ⟨rounds, widened, rfl⟩
  entry _ := describes_empty _
  backEdge _ := describes_empty _

/-- The rounds that are left, from a header that holds on entry. -/
theorem solved_iterateHeader (rounds : Nat)
    (hentry : ∀ {φ : Type} {locals : Locals φ}, input.Describes locals → header.Describes locals) :
    Solved input step (iterateHeader step rounds header) := by
  induction rounds, header using iterateHeader.induct step with
  | case1 rounds header current candidate widened hstable =>
      rw [iterateHeader, if_pos hstable]
      refine ⟨⟨rounds + 1, false, rfl⟩, hentry, ?_⟩
      intro φ locals hback
      -- the header did not move, so it has taken in the back edge
      show header.Describes locals
      rw [← hstable]
      exact (hback.join_right header).widen header
  | case2 rounds header current candidate widened nextRound hmoves hlimit =>
      rw [iterateHeader, if_neg hmoves, if_pos hlimit]
      exact solved_empty nextRound true
  | case3 rounds header current candidate widened nextRound hmoves hleft ih =>
      rw [iterateHeader, if_neg hmoves, if_neg hleft]
      exact ih fun hinput => ((hentry hinput).join_left _).widen _

/-- **Every loop is solved**, by iteration, by its fallback or in one pass. -/
theorem solved_solve (nestingHeight : Nat) {φ : Type} {locals : Locals φ} (hinput : input.Describes locals) :
    Solved input step (solve nestingHeight input step) := by
  obtain ⟨entries, rfl⟩ := hinput.reachable
  unfold solve
  split
  · exact solved_empty 1 true
  · exact solved_iterateHeader 0 id

/-- A header that takes in its back edge is the one that is found. -/
theorem header_iterateHeader {rounds : Nat}
    (hstable : widenIntegerFacts header (joinIntegerFacts header (step header).stepBackEdgeFacts) = header) :
    (iterateHeader step rounds header).loopHeaderFacts = header := by
  rw [iterateHeader, if_pos hstable]
  rfl

theorem rounds_iterateHeader {rounds : Nat} (hrounds : rounds < loopIterationLimit) :
    (iterateHeader step rounds header).loopFixedPointIterations ≤ loopIterationLimit := by
  induction rounds, header using iterateHeader.induct step with
  | case1 rounds header current candidate widened hstable =>
      rw [iterateHeader, if_pos hstable]
      exact hrounds
  | case2 rounds header current candidate widened nextRound hmoves hlimit =>
      rw [iterateHeader, if_neg hmoves, if_pos hlimit]
      exact hrounds
  | case3 rounds header current candidate widened nextRound hmoves hleft ih =>
      rw [iterateHeader, if_neg hmoves, if_neg hleft]
      exact ih (by omega)

/-- The solver stays within its rounds, whatever the loop and the facts at its entry. -/
theorem rounds_solve (nestingHeight : Nat) (input : IntegerFacts) (step : IntegerFacts → LoopStep) :
    (solve nestingHeight input step).loopFixedPointIterations ≤ loopIterationLimit := by
  unfold solve
  split
  · show 1 ≤ loopIterationLimit
    decide
  · cases input with
    | unreachableFacts => exact Nat.zero_le _
    | reachableFacts entries =>
        apply rounds_iterateHeader
        decide

end Solver

/-! ## Runs of a loop -/

/-- A loop of the source: whether it tests before its first iteration, and its parts. -/
structure LoopParts where
  testsFirst : Bool
  condition : CoreExpression
  body : List CoreStatement
  update : List CoreStatement

def loopParts : CoreStatement → Option LoopParts
  | .coreWhile condition body => some ⟨true, condition, body, []⟩
  | .coreDoWhile body condition => some ⟨false, condition, body, []⟩
  | .coreFor condition body update => some ⟨true, condition, body, update⟩
  | _ => none

/-- Where a run of a loop is: before a test of the condition, or at the start of the body. -/
inductive LoopPoint
  | test | start
  deriving DecidableEq

/-- The header is where the first iteration begins. -/
def LoopParts.header (loop : LoopParts) : LoopPoint :=
  if loop.testsFirst then .test else .start

/-- A body that ends so goes on to the update. -/
def Iterates {φ : Type} (flow : Flow φ) : Prop := flow = .proceed ∨ flow = .continueLoop

section Runs

variable (platform : Platform) (functions : List CoreFunction) (invoke : Invoke platform) (fuel : Nat)

/-- **The arrivals of a run** that starts with the given store: a point of the loop, and the store there. -/
inductive Arrives (loop : LoopParts) (locals : Locals platform.Floating) (world : World platform.Floating) :
    LoopPoint → Locals platform.Floating → World platform.Floating → Prop
  | enter : Arrives loop locals world loop.header locals world
  | taken {here there there'} {tested} : Arrives loop locals world .test here there →
      evaluate platform functions invoke loop.condition here there = .done tested there' →
      truth platform tested.observe = some true → Arrives loop locals world .start here there'
  | again {here here' here'' there there' there''} {flow} : Arrives loop locals world .start here there →
      executeAll platform functions invoke fuel loop.body here there = .done (flow, here') there' →
      Iterates flow →
      executeAll platform functions invoke fuel loop.update here' there' = .done (.proceed, here'') there'' →
      Arrives loop locals world .test here'' there''

/-- **How a run of a loop ends**: it proceeds after a test that is false or a break, or returns. -/
inductive Leaves (loop : LoopParts) (locals : Locals platform.Floating) (world : World platform.Floating) :
    Flow platform.Floating → Locals platform.Floating → World platform.Floating → Prop
  | tested {here there there'} {tested} : Arrives platform functions invoke fuel loop locals world .test here there →
      evaluate platform functions invoke loop.condition here there = .done tested there' →
      truth platform tested.observe = some false → Leaves loop locals world .proceed here there'
  | bodyBreaks {here here' there there'} :
      Arrives platform functions invoke fuel loop locals world .start here there →
      executeAll platform functions invoke fuel loop.body here there = .done (.breakLoop, here') there' →
      Leaves loop locals world .proceed here' there'
  | bodyReturns {here here' there there'} {value} :
      Arrives platform functions invoke fuel loop locals world .start here there →
      executeAll platform functions invoke fuel loop.body here there = .done (.returnValue value, here') there' →
      Leaves loop locals world (.returnValue value) here' there'
  | updateBreaks {here here' here'' there there' there''} {flow} :
      Arrives platform functions invoke fuel loop locals world .start here there →
      executeAll platform functions invoke fuel loop.body here there = .done (flow, here') there' →
      Iterates flow →
      executeAll platform functions invoke fuel loop.update here' there' = .done (.breakLoop, here'') there'' →
      Leaves loop locals world .proceed here'' there''
  | updateReturns {here here' here'' there there' there''} {flow} {value} :
      Arrives platform functions invoke fuel loop locals world .start here there →
      executeAll platform functions invoke fuel loop.body here there = .done (flow, here') there' →
      Iterates flow →
      executeAll platform functions invoke fuel loop.update here' there' = .done (.returnValue value, here'') there'' →
      Leaves loop locals world (.returnValue value) here'' there''

end Runs

section RunLoop

variable {platform : Platform} {functions : List CoreFunction} {invoke : Invoke platform} {fuel : Nat}
  {loop : LoopParts} {locals here here' : Locals platform.Floating} {world there there' : World platform.Floating}
  {flow : Flow platform.Floating}

/-- What a loop runs on from a point of a run. -/
def loopRun (platform : Platform) (functions : List CoreFunction) (invoke : Invoke platform) (fuel : Nat)
    (loop : LoopParts) (iterations : Nat) (point : LoopPoint) : Execution platform :=
  runLoop platform functions invoke loop.condition (executeAll platform functions invoke fuel loop.body)
    (executeAll platform functions invoke fuel loop.update) iterations (point = .test)

/-- How a loop goes on after an update that ended in a flow. -/
def afterUpdate (platform : Platform) (functions : List CoreFunction) (invoke : Invoke platform) (fuel : Nat)
    (loop : LoopParts) (iterations : Nat) (updated : Flow platform.Floating × Locals platform.Floating)
    (world : World platform.Floating) : Run platform (Flow platform.Floating × Locals platform.Floating) :=
  match updated.1 with
  | .proceed => loopRun platform functions invoke fuel loop iterations .test updated.2 world
  | .breakLoop => .done (.proceed, updated.2) world
  | .returnValue value => .done (.returnValue value, updated.2) world
  | .continueLoop => .stuck

/-- A finished run leaves the loop from one of its arrivals. -/
theorem leaves_of_loopRun (iterations : Nat) :
    ∀ {point : LoopPoint} {here : Locals platform.Floating} {there : World platform.Floating},
    Arrives platform functions invoke fuel loop locals world point here there →
    loopRun platform functions invoke fuel loop iterations point here there = .done (flow, here') there' →
    Leaves platform functions invoke fuel loop locals world flow here' there' := by
  induction iterations with
  | zero =>
      intro point here there _ hrun
      cases hrun
  | succ iterations ih =>
      -- one iteration, from the start of the body
      have hstart : ∀ {here : Locals platform.Floating} {there : World platform.Floating},
          Arrives platform functions invoke fuel loop locals world .start here there →
          loopRun platform functions invoke fuel loop (iterations + 1) .start here there
            = .done (flow, here') there' →
          Leaves platform functions invoke fuel loop locals world flow here' there' := by
        intro here there harrives hrun
        obtain ⟨⟨ended, middle⟩, between, hbody, hrun⟩ := Outcome.bind_eq_done.mp hrun
        have hiterates : Iterates ended → ((executeAll platform functions invoke fuel loop.update middle
            between).bind (afterUpdate platform functions invoke fuel loop iterations))
              = .done (flow, here') there' →
            Leaves platform functions invoke fuel loop locals world flow here' there' := by
          intro hended hupdate
          obtain ⟨⟨updated, after⟩, afterwards, hupdated, hupdate⟩ := Outcome.bind_eq_done.mp hupdate
          cases updated with
          | proceed => exact ih (.again harrives hbody hended hupdated) hupdate
          | breakLoop =>
              cases hupdate
              exact .updateBreaks harrives hbody hended hupdated
          | continueLoop => cases hupdate
          | returnValue value =>
              cases hupdate
              exact .updateReturns harrives hbody hended hupdated
        cases ended with
        | proceed => exact hiterates (Or.inl rfl) hrun
        | breakLoop =>
            cases hrun
            exact .bodyBreaks harrives hbody
        | continueLoop => exact hiterates (Or.inr rfl) hrun
        | returnValue value =>
            cases hrun
            exact .bodyReturns harrives hbody
      intro point here there harrives hrun
      cases point with
      | start => exact hstart harrives hrun
      | test =>
          obtain ⟨tested, between, htested, hrun⟩ := Outcome.bind_eq_done.mp hrun
          obtain ⟨flag, hflag, hrun⟩ := branchOn_eq_done.mp hrun
          cases flag with
          | true => exact hstart (.taken harrives htested hflag) hrun
          | false =>
              cases hrun
              exact .tested harrives htested hflag

/-- A loop statement runs its loop from the header. -/
theorem execute_loop {statement : CoreStatement} (hparts : loopParts statement = some loop) :
    execute platform functions invoke fuel statement locals world
      = loopRun platform functions invoke fuel loop fuel loop.header locals world := by
  cases statement <;> cases hparts <;> rw [execute]
  all_goals rfl

end RunLoop

/-! ## Statements -/

/-- Whether stepping over a value, or bounding it to write it down, meets a test that is misread. -/
def writtenMeetsSelfTest (isBounded : Bool) (value : CoreExpression) : Bool :=
  meetsSelfTest .transfer value
    || (isBounded && !expressionInvokesCallable value && meetsSelfTest .fact value)

mutual

/-- Whether an analysis of the statement meets a test that it misreads. -/
def statementMeetsSelfTest : CoreStatement → Bool
  | .coreBind _ type _ value => writtenMeetsSelfTest (isCoreIntegerType type) value
  | .coreAssign _ value => writtenMeetsSelfTest true value
  | .coreReturn value => meetsSelfTest .transfer value
  | .coreEvaluate value => meetsSelfTest .transfer value
  | .coreIf condition whenTrue whenFalse =>
      meetsSelfTest .refine condition || statementsMeetSelfTest whenTrue || statementsMeetSelfTest whenFalse
  | .coreWhile condition body => meetsSelfTest .refine condition || statementsMeetSelfTest body
  | .coreDoWhile body condition => meetsSelfTest .refine condition || statementsMeetSelfTest body
  | .coreFor condition body update =>
      meetsSelfTest .refine condition || statementsMeetSelfTest body || statementsMeetSelfTest update
  | .coreBreak => false
  | .coreContinue => false

def statementsMeetSelfTest : List CoreStatement → Bool
  | [] => false
  | statement :: remaining => statementMeetsSelfTest statement || statementsMeetSelfTest remaining

end

/-- The facts on the edge along which a statement ended. -/
def StatementFlowFacts.along {φ : Type} (flow : StatementFlowFacts) : Flow φ → IntegerFacts
  | .proceed => flow.flowNormalFacts
  | .breakLoop => flow.flowBreakFacts
  | .continueLoop => flow.flowContinueFacts
  | .returnValue _ => flow.flowReturnFacts

section Sound

attribute [local simp] analyzeStatementFlow analyzeSequenceFlow statementMeetsSelfTest statementsMeetSelfTest

variable {platform : Platform} {functions : List CoreFunction} {invoke : Invoke platform}
  (discipline : Discipline platform functions invoke) (fuel : Nat)

/-- **Soundness of the flow of a statement**: it ends in a store that has the types of the scope after it,
and that the facts of the edge it ended along describe. -/
def StatementSound (statement : CoreStatement) : Prop :=
  ∀ {environment : Environment} {returnType : Ty} {scope : TransferScope} {facts : IntegerFacts}
    {locals locals' : Locals platform.Floating} {world world' : World platform.Floating}
    {flow : Flow platform.Floating},
    verifyStatement environment returnType scope statement = [] → statementMeetsSelfTest statement = false →
    discipline.holds environment locals world → facts.Describes locals →
    execute platform functions invoke fuel statement locals world = .done (flow, locals') world' →
    discipline.holds (statementEnvironment environment statement) locals' world' ∧
      ((analyzeStatementFlow facts statement).along flow).Describes locals'

/-- The same for a block; the names it introduced are out of scope when it ends. -/
def SequenceSound (statements : List CoreStatement) : Prop :=
  ∀ {environment : Environment} {returnType : Ty} {scope : TransferScope} {facts : IntegerFacts}
    {locals locals' : Locals platform.Floating} {world world' : World platform.Floating}
    {flow : Flow platform.Floating},
    verifyStatements environment returnType scope statements = [] → statementsMeetSelfTest statements = false →
    discipline.holds environment locals world → facts.Describes locals →
    executeAll platform functions invoke fuel statements locals world = .done (flow, locals') world' →
    discipline.holds environment locals' world' ∧
      ((analyzeSequenceFlow facts statements).along flow).Describes locals'

variable {discipline : Discipline platform functions invoke} {fuel : Nat} {environment : Environment}
  {returnType : Ty} {scope : TransferScope} {facts : IntegerFacts} {name : ResolvedName} {type : Ty}
  {isMutable : Bool} {value condition : CoreExpression} {statement : CoreStatement}
  {whenTrue whenFalse remaining : List CoreStatement} {locals locals' : Locals platform.Floating}
  {world world' : World platform.Floating} {result : Value platform.Floating}

/-- An evaluation under the discipline. -/
theorem evaluates_of_done
    (haccepted : verifyExpression environment value = []) (hholds : discipline.holds environment locals world)
    (hdone : evaluate platform functions invoke value locals world = .done result world') :
    Evaluates platform functions environment value locals result :=
  ⟨haccepted, invoke, discipline, world, world', hholds, hdone⟩

/-- What is written down of a value contains it. -/
theorem written_describes {isBounded : Bool} {symbol : Int}
    (he : Evaluates platform functions environment value locals result) (hd : facts.Describes locals)
    (hmeets : writtenMeetsSelfTest isBounded value = false) :
    (setIntegerFact (transferExpressionFacts facts value) symbol
      (if isBounded then writtenFact facts value else none)).Describes (locals.set symbol result) := by
  have hsound : AnalysesSound platform functions value := analysesSound value
  rw [writtenMeetsSelfTest, Bool.or_eq_false_iff] at hmeets
  refine (hsound.transfer he hd hmeets.1).set (fun other hother => Locals.set_other hother) ?_
  intro fact hknown
  split at hknown
  · next hbounded =>
      rw [writtenFact] at hknown
      split at hknown
      · cases hknown
      · next hinvokes =>
          have hfact : meetsSelfTest .fact value = false := by simpa [hbounded, hinvokes] using hmeets.2
          obtain ⟨n, rfl, hcontains⟩ := hsound.fact he hd hfact hknown
          exact ⟨n, Locals.set_same _ _ _, hcontains⟩
  · cases hknown

theorem statementSound_coreBind : StatementSound discipline fuel (.coreBind name type isMutable value) := by
  intro environment returnType scope facts locals locals' world world' flow haccepted hmeets hholds hd hrun
  obtain ⟨-, -, hfresh, rfl, hvalue⟩ := verifyStatement_coreBind.mp haccepted
  obtain ⟨bound, hdone, hended⟩ := execute_coreBind.mp hrun
  cases hended
  have he := evaluates_of_done hvalue hholds hdone
  obtain ⟨entries, rfl⟩ := hd.reachable
  rw [statementMeetsSelfTest] at hmeets
  exact ⟨discipline.bound _ _ hvalue hholds hdone (integerResult value he), written_describes he hd hmeets⟩

theorem statementSound_coreAssign : StatementSound discipline fuel (.coreAssign name value) := by
  intro environment returnType scope facts locals locals' world world' flow haccepted hmeets hholds hd hrun
  obtain ⟨-, hvalue, hfind⟩ := verifyStatement_coreAssign.mp haccepted
  obtain ⟨assigned, hdone, -, hended⟩ := execute_coreAssign.mp hrun
  cases hended
  have he := evaluates_of_done hvalue hholds hdone
  obtain ⟨entries, rfl⟩ := hd.reachable
  rw [statementMeetsSelfTest] at hmeets
  exact ⟨discipline.assigned hvalue hholds hdone (integerResult value he) hfind, written_describes he hd hmeets⟩

theorem statementSound_coreReturn : StatementSound discipline fuel (.coreReturn value) := by
  intro environment returnType scope facts locals locals' world world' flow haccepted hmeets hholds hd hrun
  obtain ⟨hvalue, -⟩ := verifyStatement_coreReturn.mp haccepted
  obtain ⟨result, hdone, hended⟩ := execute_coreReturn.mp hrun
  cases hended
  have hsound : AnalysesSound platform functions value := analysesSound value
  obtain ⟨entries, rfl⟩ := hd.reachable
  exact ⟨discipline.evaluated hvalue hholds hdone,
    hsound.transfer (evaluates_of_done hvalue hholds hdone) hd hmeets⟩

theorem statementSound_coreEvaluate : StatementSound discipline fuel (.coreEvaluate value) := by
  intro environment returnType scope facts locals locals' world world' flow haccepted hmeets hholds hd hrun
  have hvalue := verifyStatement_coreEvaluate.mp haccepted
  obtain ⟨result, hdone, hended⟩ := execute_coreEvaluate.mp hrun
  cases hended
  have hsound : AnalysesSound platform functions value := analysesSound value
  obtain ⟨entries, rfl⟩ := hd.reachable
  exact ⟨discipline.evaluated hvalue hholds hdone,
    hsound.transfer (evaluates_of_done hvalue hholds hdone) hd hmeets⟩

variable {flow : Flow platform.Floating} {tested : Value platform.Floating}

theorem along_joinFlowFacts_left {left : StatementFlowFacts} (right : StatementFlowFacts)
    (h : (left.along flow).Describes locals) :
    ((joinFlowFacts left right).along flow).Describes locals := by
  cases flow <;> exact h.join_left _

theorem along_joinFlowFacts_right (left : StatementFlowFacts) {right : StatementFlowFacts}
    (h : (right.along flow).Describes locals) :
    ((joinFlowFacts left right).along flow).Describes locals := by
  cases flow <;> exact h.join_right _

/-- The edge of a condition that is taken, and what holds on it. -/
theorem condition_edge {flag : Bool} (haccepted : verifyExpression environment condition = [])
    (hmeets : meetsSelfTest .refine condition = false) (hholds : discipline.holds environment locals world)
    (hd : facts.Describes locals)
    (hdone : evaluate platform functions invoke condition locals world = .done tested world')
    (hflag : truth platform tested.observe = some flag) :
    discipline.holds environment locals world' ∧ (refineConditionFacts flag condition facts).Describes locals :=
  have hsound : AnalysesSound platform functions condition := analysesSound condition
  ⟨discipline.evaluated haccepted hholds hdone,
    hsound.refine (evaluates_of_done haccepted hholds hdone) hd hmeets hflag⟩

theorem statementSound_coreIf (hwhenTrue : SequenceSound discipline fuel whenTrue)
    (hwhenFalse : SequenceSound discipline fuel whenFalse) :
    StatementSound discipline fuel (.coreIf condition whenTrue whenFalse) := by
  intro environment returnType scope facts locals locals' world world' flow haccepted hmeets hholds hd hrun
  obtain ⟨hcondition, -, htrue, hfalse⟩ := verifyStatement_coreIf.mp haccepted
  obtain ⟨tested, between, flag, htested, hflag, hrun⟩ := execute_coreIf.mp hrun
  simp only [statementMeetsSelfTest, Bool.or_eq_false_iff] at hmeets
  obtain ⟨⟨hmeets, hmeetsTrue⟩, hmeetsFalse⟩ := hmeets
  obtain ⟨hafter, hedge⟩ := condition_edge hcondition hmeets hholds hd htested hflag
  obtain ⟨entries, rfl⟩ := hd.reachable
  cases flag with
  | true =>
      obtain ⟨hends, hdescribes⟩ := hwhenTrue htrue hmeetsTrue hafter hedge hrun
      exact ⟨hends, along_joinFlowFacts_left _ hdescribes⟩
  | false =>
      obtain ⟨hends, hdescribes⟩ := hwhenFalse hfalse hmeetsFalse hafter hedge hrun
      exact ⟨hends, along_joinFlowFacts_right _ hdescribes⟩

theorem statementSound_coreBreak : StatementSound discipline fuel .coreBreak := by
  intro environment returnType scope facts locals locals' world world' flow haccepted hmeets hholds hd hrun
  cases hrun
  obtain ⟨entries, rfl⟩ := hd.reachable
  exact ⟨hholds, hd⟩

theorem statementSound_coreContinue : StatementSound discipline fuel .coreContinue := by
  intro environment returnType scope facts locals locals' world world' flow haccepted hmeets hholds hd hrun
  cases hrun
  obtain ⟨entries, rfl⟩ := hd.reachable
  exact ⟨hholds, hd⟩

/-- A name that a statement introduced is not in scope before it. -/
theorem holds_of_statementEnvironment (haccepted : verifyStatement environment returnType scope statement = [])
    (h : discipline.holds (statementEnvironment environment statement) locals world) :
    discipline.holds environment locals world := by
  cases statement with
  | coreBind name type isMutable value =>
      obtain ⟨-, -, hfresh, -, -⟩ := verifyStatement_coreBind.mp haccepted
      exact discipline.leaves hfresh h
  | _ => exact h

theorem sequenceSound_nil : SequenceSound discipline fuel [] := by
  intro environment returnType scope facts locals locals' world world' flow _ _ hholds hd hrun
  cases hrun
  exact ⟨hholds, hd⟩

theorem sequenceSound_cons (hstatement : StatementSound discipline fuel statement)
    (hremaining : SequenceSound discipline fuel remaining) :
    SequenceSound discipline fuel (statement :: remaining) := by
  intro environment returnType scope facts locals locals' world world' flow haccepted hmeets hholds hd hrun
  obtain ⟨hfirst, hrest⟩ := verifyStatements_cons.mp haccepted
  simp only [statementsMeetSelfTest, Bool.or_eq_false_iff] at hmeets
  obtain ⟨hmeetsFirst, hmeetsRest⟩ := hmeets
  rw [analyzeSequenceFlow]
  obtain ⟨hrun, hends⟩ | ⟨middle, between, hrun, hthen⟩ := executeAll_cons.mp hrun
  · obtain ⟨hafter, hdescribes⟩ := hstatement hfirst hmeetsFirst hholds hd hrun
    refine ⟨holds_of_statementEnvironment hfirst hafter, ?_⟩
    -- the statement left the block itself
    cases flow with
    | proceed => exact absurd rfl hends
    | breakLoop => exact hdescribes.join_left _
    | continueLoop => exact hdescribes.join_left _
    | returnValue value => exact hdescribes.join_left _
  · obtain ⟨hmiddle, hproceeds⟩ := hstatement hfirst hmeetsFirst hholds hd hrun
    obtain ⟨hafter, hdescribes⟩ := hremaining hrest hmeetsRest hmiddle hproceeds hthen
    refine ⟨holds_of_statementEnvironment hfirst hafter, ?_⟩
    cases flow with
    | proceed => exact hdescribes
    | breakLoop => exact hdescribes.join_right _
    | continueLoop => exact hdescribes.join_right _
    | returnValue value => exact hdescribes.join_right _

/-! ### Loops -/

/-- The update of a loop as its analysis has it: there is none where it is empty. -/
def updateFlow (update : List CoreStatement) : Option (IntegerFacts → StatementFlowFacts) :=
  if update.isEmpty then none else some fun input => analyzeSequenceFlow input update

/-- One pass over a loop. -/
def loopStep (loop : LoopParts) : IntegerFacts → LoopStep :=
  if loop.testsFirst then
    whileStep loop.condition (fun input => analyzeSequenceFlow input loop.body) (updateFlow loop.update)
  else doWhileStep loop.condition (fun input => analyzeSequenceFlow input loop.body)

/-- The facts a pass finds at a point of the loop. -/
def LoopStep.atPoint (step : LoopStep) : LoopPoint → IntegerFacts
  | .test => step.stepConditionFacts
  | .start => step.stepBodyFacts

/-- A loop whose parts are accepted and meet no test that is misread. -/
structure LoopAccepted (environment : Environment) (returnType : Ty) (loop : LoopParts) : Prop where
  condition : verifyExpression environment loop.condition = []
  body : verifyStatements environment returnType .inLoopBody loop.body = []
  update : verifyStatements environment returnType .inForUpdate loop.update = []
  meetsCondition : meetsSelfTest .refine loop.condition = false
  meetsBody : statementsMeetSelfTest loop.body = false
  meetsUpdate : statementsMeetSelfTest loop.update = false
  updates : loop.testsFirst = false → loop.update = []

variable {loop : LoopParts} {header : IntegerFacts} {here here' : Locals platform.Floating}
  {there there' : World platform.Floating} {flow : Flow platform.Floating} {point : LoopPoint}

theorem loopAccepted_of_parts (hparts : loopParts statement = some loop)
    (haccepted : verifyStatement environment returnType scope statement = [])
    (hmeets : statementMeetsSelfTest statement = false) : LoopAccepted environment returnType loop := by
  cases statement with
  | coreWhile condition body =>
      cases hparts
      obtain ⟨hcondition, -, hbody⟩ := verifyStatement_coreWhile.mp haccepted
      simp only [statementMeetsSelfTest, Bool.or_eq_false_iff] at hmeets
      exact ⟨hcondition, hbody, rfl, hmeets.1, hmeets.2, rfl, fun _ => rfl⟩
  | coreDoWhile body condition =>
      cases hparts
      obtain ⟨hbody, hcondition, -⟩ := verifyStatement_coreDoWhile.mp haccepted
      simp only [statementMeetsSelfTest, Bool.or_eq_false_iff] at hmeets
      exact ⟨hcondition, hbody, rfl, hmeets.1, hmeets.2, rfl, fun _ => rfl⟩
  | coreFor condition body update =>
      cases hparts
      obtain ⟨hcondition, -, hbody, hupdate⟩ := verifyStatement_coreFor.mp haccepted
      simp only [statementMeetsSelfTest, Bool.or_eq_false_iff] at hmeets
      exact ⟨hcondition, hbody, hupdate, hmeets.1.1, hmeets.1.2, hmeets.2, nofun⟩
  | _ => cases hparts

theorem loopFactSummary_eq_solve (hparts : loopParts statement = some loop) (input : IntegerFacts) :
    ∃ nestingHeight, loopFactSummary input statement = some (solve nestingHeight input (loopStep loop)) := by
  cases statement <;> cases hparts <;> exact ⟨_, rfl⟩

/-- A loop inside a block is analysed by its summary. -/
theorem analyzeStatementFlow_loop (hparts : loopParts statement = some loop) (hd : facts.Describes locals) :
    ∃ summary, loopFactSummary facts statement = some summary ∧
      analyzeStatementFlow facts statement = loopNormalFlow summary := by
  obtain ⟨entries, rfl⟩ := hd.reachable
  cases statement <;> cases hparts <;> exact ⟨_, rfl, rfl⟩

theorem atPoint_header : (loopStep loop header).atPoint loop.header = header := by
  unfold loopStep LoopParts.header
  cases loop.testsFirst <;> rfl

theorem join_of_iterates {flows : StatementFlowFacts} (hiterates : Iterates flow)
    (h : (flows.along flow).Describes locals) :
    (joinIntegerFacts flows.flowNormalFacts flows.flowContinueFacts).Describes locals := by
  obtain rfl | rfl := hiterates
  · exact IntegerFacts.Describes.join_left h _
  · exact IntegerFacts.Describes.join_right _ h

/-- What goes on from an update is on the back edge; without an update that is what the body left. -/
theorem backEdge_describes {update : Option (IntegerFacts → StatementFlowFacts)} (hiterates : Iterates flow)
    (h : ((update.elim (normalFlow facts) fun update => update facts).along flow).Describes locals) :
    (update.elim facts fun _ =>
      joinIntegerFacts (update.elim (normalFlow facts) fun update => update facts).flowNormalFacts
        (update.elim (normalFlow facts) fun update => update facts).flowContinueFacts).Describes locals := by
  cases update with
  | none =>
      obtain rfl | rfl := hiterates
      · exact h
      · exact h.elim
  | some update => exact join_of_iterates hiterates h

/-- An update that ends leaves a store that the facts of its edge describe, also where there is none. -/
theorem update_describes {update : List CoreStatement} (hsound : SequenceSound discipline fuel update)
    (haccepted : verifyStatements environment returnType .inForUpdate update = [])
    (hmeets : statementsMeetSelfTest update = false) (hholds : discipline.holds environment locals world)
    (hd : facts.Describes locals)
    (hrun : executeAll platform functions invoke fuel update locals world = .done (flow, locals') world') :
    discipline.holds environment locals' world' ∧
      (((updateFlow update).elim (normalFlow facts) fun update => update facts).along flow).Describes locals' := by
  cases update with
  | nil =>
      cases hrun
      exact ⟨hholds, hd⟩
  | cons statement remaining => exact hsound haccepted hmeets hholds hd hrun

section Passes

variable (haccepted : LoopAccepted environment returnType loop) (hbody : SequenceSound discipline fuel loop.body)
  (hupdate : SequenceSound discipline fuel loop.update)
include haccepted

/-- A test leads on: into the body when it is true, to the exit when it is false. -/
theorem test_describes {flag : Bool} (hback : ∀ {locals : Locals platform.Floating},
      (loopStep loop header).stepBackEdgeFacts.Describes locals → header.Describes locals)
    (hholds : discipline.holds environment here there)
    (hd : ((loopStep loop header).atPoint .test).Describes here)
    (hdone : evaluate platform functions invoke loop.condition here there = .done tested there')
    (hflag : truth platform tested.observe = some flag) :
    discipline.holds environment here there' ∧
      (if flag then (loopStep loop header).atPoint .start
        else (loopStep loop header).stepExitFacts).Describes here := by
  obtain ⟨hafter, hedge⟩ := condition_edge haccepted.condition haccepted.meetsCondition hholds hd hdone hflag
  refine ⟨hafter, ?_⟩
  revert hback hedge
  unfold loopStep
  cases loop.testsFirst with
  | true =>
      intro _ hedge
      cases flag with
      | true => exact hedge
      | false => exact hedge.join_left _
  | false =>
      intro hback hedge
      cases flag with
      | true => exact hback hedge
      | false => exact hedge.join_right _

include hbody

/-- What a body that ended left behind, and the facts its edge is joined into. -/
theorem body_describes (hholds : discipline.holds environment here there)
    (hd : ((loopStep loop header).atPoint .start).Describes here)
    (hrun : executeAll platform functions invoke fuel loop.body here there = .done (flow, here') there') :
    discipline.holds environment here' there' ∧
      ((analyzeSequenceFlow (loopStep loop header).stepBodyFacts loop.body).along flow).Describes here' :=
  hbody haccepted.body haccepted.meetsBody hholds hd hrun

theorem bodyBreaks_describes (hholds : discipline.holds environment here there)
    (hd : ((loopStep loop header).atPoint .start).Describes here)
    (hrun : executeAll platform functions invoke fuel loop.body here there = .done (.breakLoop, here') there') :
    discipline.holds environment here' there' ∧ (loopStep loop header).stepExitFacts.Describes here' := by
  obtain ⟨hafter, hedge⟩ := body_describes haccepted hbody hholds hd hrun
  refine ⟨hafter, ?_⟩
  revert hedge
  unfold loopStep
  cases loop.testsFirst with
  | true => exact fun hedge => (IntegerFacts.Describes.join_left hedge _).join_right _
  | false => exact fun hedge => IntegerFacts.Describes.join_left hedge _

theorem bodyReturns_describes (hholds : discipline.holds environment here there)
    (hd : ((loopStep loop header).atPoint .start).Describes here)
    (hrun : executeAll platform functions invoke fuel loop.body here there
      = .done (.returnValue result, here') there') :
    discipline.holds environment here' there' ∧ (loopStep loop header).stepReturnFacts.Describes here' := by
  obtain ⟨hafter, hedge⟩ := body_describes haccepted hbody hholds hd hrun
  refine ⟨hafter, ?_⟩
  revert hedge
  unfold loopStep
  cases loop.testsFirst with
  | true => exact fun hedge => IntegerFacts.Describes.join_left hedge _
  | false => exact fun hedge => hedge

include hupdate

section Back

variable (hback : ∀ {locals : Locals platform.Floating}, (loopStep loop header).stepBackEdgeFacts.Describes
  locals → header.Describes locals)

include hback

/-- An iteration that ended, by the edge along which its update did: the next test, a break or a return. -/
theorem iteration_describes {middle : Locals platform.Floating} {between : World platform.Floating}
    {ended : Flow platform.Floating} (hholds : discipline.holds environment here there)
    (hd : ((loopStep loop header).atPoint .start).Describes here)
    (hrun : executeAll platform functions invoke fuel loop.body here there = .done (ended, middle) between)
    (hended : Iterates ended)
    (hrun' : executeAll platform functions invoke fuel loop.update middle between = .done (flow, here') there') :
    discipline.holds environment here' there' ∧
      (match flow with
        | .breakLoop => (loopStep loop header).stepExitFacts
        | .returnValue _ => (loopStep loop header).stepReturnFacts
        | _ => (loopStep loop header).atPoint .test).Describes here' := by
  obtain ⟨hmiddle, hedge⟩ := body_describes haccepted hbody hholds hd hrun
  have hinput := join_of_iterates hended hedge
  obtain ⟨hafter, hedge'⟩ :=
    update_describes hupdate haccepted.update haccepted.meetsUpdate hmiddle hinput hrun'
  refine ⟨hafter, ?_⟩
  have hupdates := haccepted.updates
  revert hback hinput hedge' hupdates
  unfold loopStep
  cases loop.testsFirst with
  | true =>
      intro hback hinput hedge' _
      have hedges : Iterates flow → header.Describes here' :=
        fun hiterates => hback (backEdge_describes hiterates hedge')
      cases flow with
      | proceed => exact hedges (Or.inl rfl)
      | continueLoop => exact hedges (Or.inr rfl)
      | breakLoop => exact (IntegerFacts.Describes.join_right _ hedge').join_right _
      | returnValue result => exact IntegerFacts.Describes.join_right _ hedge'
  | false =>
      intro _ hinput _ hupdates
      -- a do/while has no update: it proceeds with the store of its body
      rw [hupdates rfl] at hrun'
      cases hrun'
      exact hinput

/-- **Every arrival is described** by what a pass from the header finds there. -/
theorem arrives_describes
    (hholds : discipline.holds environment locals world) (hd : header.Describes locals)
    (harrives : Arrives platform functions invoke fuel loop locals world point here there) :
    discipline.holds environment here there ∧ ((loopStep loop header).atPoint point).Describes here := by
  induction harrives with
  | enter =>
      rw [atPoint_header]
      exact ⟨hholds, hd⟩
  | taken _ htested hflag ih => exact test_describes haccepted hback ih.1 ih.2 htested hflag
  | again _ hrun hended hrun' ih =>
      exact iteration_describes haccepted hbody hupdate hback ih.1 ih.2 hrun hended hrun'

/-- **Every end of a run is described** by what a pass from the header finds on that edge. -/
theorem leaves_describes
    (hholds : discipline.holds environment locals world) (hd : header.Describes locals)
    (hleaves : Leaves platform functions invoke fuel loop locals world flow here there) :
    discipline.holds environment here there ∧
      (match flow with
        | .returnValue _ => (loopStep loop header).stepReturnFacts
        | _ => (loopStep loop header).stepExitFacts).Describes here := by
  have hevery : ∀ {point : LoopPoint} {here : Locals platform.Floating} {there : World platform.Floating},
      Arrives platform functions invoke fuel loop locals world point here there →
      discipline.holds environment here there ∧ ((loopStep loop header).atPoint point).Describes here :=
    fun harrives => arrives_describes haccepted hbody hupdate hback hholds hd harrives
  cases hleaves with
  | tested harrives htested hflag =>
      obtain ⟨hholds, hd⟩ := hevery harrives
      exact test_describes haccepted hback hholds hd htested hflag
  | bodyBreaks harrives hrun =>
      obtain ⟨hholds, hd⟩ := hevery harrives
      exact bodyBreaks_describes haccepted hbody hholds hd hrun
  | bodyReturns harrives hrun =>
      obtain ⟨hholds, hd⟩ := hevery harrives
      exact bodyReturns_describes haccepted hbody hholds hd hrun
  | updateBreaks harrives hrun hended hrun' =>
      obtain ⟨hholds, hd⟩ := hevery harrives
      exact iteration_describes haccepted hbody hupdate hback hholds hd hrun hended hrun'
  | updateReturns harrives hrun hended hrun' =>
      obtain ⟨hholds, hd⟩ := hevery harrives
      exact iteration_describes haccepted hbody hupdate hback hholds hd hrun hended hrun'

end Back

end Passes

/-- What a summary of a loop says of its runs from a store. -/
structure SummarySound (discipline : Discipline platform functions invoke) (fuel : Nat)
    (environment : Environment) (loop : LoopParts) (locals : Locals platform.Floating)
    (world : World platform.Floating) (summary : LoopFactSummary) : Prop where
  arrivals : ∀ {here there}, Arrives platform functions invoke fuel loop locals world loop.header here there →
    discipline.holds environment here there ∧ summary.loopHeaderFacts.Describes here
  ends : ∀ {flow here there}, Leaves platform functions invoke fuel loop locals world flow here there →
    discipline.holds environment here there ∧ ((loopNormalFlow summary).along flow).Describes here

/-- A loop whose blocks are sound has a sound summary. -/
theorem summarySound_of_parts (hparts : loopParts statement = some loop)
    (haccepted : LoopAccepted environment returnType loop) (hbody : SequenceSound discipline fuel loop.body)
    (hupdate : SequenceSound discipline fuel loop.update) (hholds : discipline.holds environment locals world)
    (hd : facts.Describes locals) :
    ∃ summary, loopFactSummary facts statement = some summary ∧
      SummarySound discipline fuel environment loop locals world summary := by
  obtain ⟨nestingHeight, hsummary⟩ := loopFactSummary_eq_solve hparts facts
  have hsolved : Solved facts (loopStep loop) (solve nestingHeight facts (loopStep loop)) :=
    solved_solve nestingHeight hd
  generalize solve nestingHeight facts (loopStep loop) = summary at hsummary hsolved
  refine ⟨summary, hsummary, ?_⟩
  obtain ⟨rounds, widened, hpass⟩ := hsolved.onePass
  have hheader := hsolved.entry hd
  constructor
  · intro here there harrives
    obtain ⟨hthere, hdescribes⟩ :=
      arrives_describes haccepted hbody hupdate hsolved.backEdge hholds hheader harrives
    rw [atPoint_header] at hdescribes
    exact ⟨hthere, hdescribes⟩
  · intro flow here there hleaves
    obtain ⟨hthere, hdescribes⟩ :=
      leaves_describes haccepted hbody hupdate hsolved.backEdge hholds hheader hleaves
    refine ⟨hthere, ?_⟩
    rw [hpass]
    -- a loop does not end with a break or a continue of its own
    cases hleaves <;> exact hdescribes

theorem statementSound_loop (hparts : loopParts statement = some loop)
    (hbody : SequenceSound discipline fuel loop.body) (hupdate : SequenceSound discipline fuel loop.update) :
    StatementSound discipline fuel statement := by
  intro environment returnType scope facts locals locals' world world' flow haccepted hmeets hholds hd hrun
  obtain ⟨summary, hsummary, hsound⟩ :=
    summarySound_of_parts hparts (loopAccepted_of_parts hparts haccepted hmeets) hbody hupdate hholds hd
  obtain ⟨_, hsummary', hflow⟩ := analyzeStatementFlow_loop hparts hd
  cases hsummary.symm.trans hsummary'
  rw [execute_loop hparts] at hrun
  rw [hflow]
  have henvironment : statementEnvironment environment statement = environment := by
    cases statement <;> cases hparts <;> rfl
  rw [henvironment]
  exact hsound.ends (leaves_of_loopRun fuel .enter hrun)

mutual

/-- **Every statement is sound**: induction over it, where each loop is solved from its blocks. -/
theorem statementSound : ∀ statement : CoreStatement, StatementSound discipline fuel statement
  | .coreBind _ _ _ _ => statementSound_coreBind
  | .coreAssign _ _ => statementSound_coreAssign
  | .coreReturn _ => statementSound_coreReturn
  | .coreEvaluate _ => statementSound_coreEvaluate
  | .coreIf _ whenTrue whenFalse => statementSound_coreIf (sequenceSound whenTrue) (sequenceSound whenFalse)
  | .coreWhile _ body => statementSound_loop rfl (sequenceSound body) sequenceSound_nil
  | .coreDoWhile body _ => statementSound_loop rfl (sequenceSound body) sequenceSound_nil
  | .coreFor _ body update => statementSound_loop rfl (sequenceSound body) (sequenceSound update)
  | .coreBreak => statementSound_coreBreak
  | .coreContinue => statementSound_coreContinue

theorem sequenceSound : ∀ statements : List CoreStatement, SequenceSound discipline fuel statements
  | [] => sequenceSound_nil
  | statement :: remaining => sequenceSound_cons (statementSound statement) (sequenceSound remaining)

end

end Sound

/-! ## Summaries -/

/-- **Summaries of a loop are sound**: whatever the facts at its entry, a run from a store they describe has
stores that the facts at the header describe at every arrival there, and ends in one that the facts of its
exit or of its return describe. -/
def SummariesSoundFor (statement : CoreStatement) : Prop :=
  ∀ (platform : Platform) (functions : List CoreFunction) (invoke : Invoke platform)
    (discipline : Discipline platform functions invoke) (fuel : Nat) (environment : Environment)
    (returnType : Ty) (scope : TransferScope) (loop : LoopParts) (facts : IntegerFacts)
    (locals : Locals platform.Floating) (world : World platform.Floating),
    loopParts statement = some loop → verifyStatement environment returnType scope statement = [] →
    discipline.holds environment locals world → facts.Describes locals →
    ∃ summary, loopFactSummary facts statement = some summary ∧
      SummarySound discipline fuel environment loop locals world summary

/-- **The solver stays within its rounds on every loop, and its summaries are sound** where no condition and
no value of the loop is a test that the analyses misread. -/
theorem loopSummaries_sound (statement : CoreStatement) :
    (∀ facts summary, loopFactSummary facts statement = some summary →
      summary.loopFixedPointIterations ≤ loopIterationLimit) ∧
    (statementMeetsSelfTest statement = false → SummariesSoundFor statement) := by
  constructor
  · intro facts summary hsummary
    cases statement <;> cases hsummary <;> exact rounds_solve _ _ _
  · intro hmeets platform functions invoke discipline fuel environment returnType scope loop facts locals world
      hparts haccepted hholds hd
    exact summarySound_of_parts hparts (loopAccepted_of_parts hparts haccepted hmeets) (sequenceSound _)
      (sequenceSound _) hholds hd

/-! ### A loop that counts down, and one that is misread -/

/-- `x`, and `y` beside it, both mutable integers. -/
def sampleEnvironment : Environment := SortedMap.ofList [(1, intType, true), (2, intType, true)]

/-- `while (x > 0) { x = x - 1; }`. -/
def countdownLoop : CoreStatement :=
  .coreWhile (.corePrimitive .coreGreaterThan [sampleVariable, .coreLiteral (.coreInteger 0) intType] boolType)
    [.coreAssign ⟨1, "x"⟩
      (.corePrimitive .coreSubtract [sampleVariable, .coreLiteral (.coreInteger 1) intType] intType)]

/-- `while (x + x) { y = 5; x = 0; }`. -/
def doubledLoop : CoreStatement :=
  .coreWhile doubledCondition
    [.coreAssign ⟨2, "y"⟩ (.coreLiteral (.coreInteger 5) intType),
      .coreAssign ⟨1, "x"⟩ (.coreLiteral (.coreInteger 0) intType)]

/-- Known of the entry: `y` is zero. -/
def sampleFacts : IntegerFacts := reachableFacts (SortedMap.ofList [(2, exactFact 0)])

/-- A store with one in `x` and zero in `y`. -/
def sampleLocals (platform : Platform) : Locals platform.Floating :=
  (Locals.set (fun _ => none) 1 (.integer 1)).set 2 (.integer 0)

theorem holds_sampleLocals (platform : Platform) : HoldsIntegers sampleEnvironment (sampleLocals platform) := by
  have hempty : HoldsIntegers SortedMap.empty (fun _ => none : Locals platform.Floating) := by
    intro symbol valueType isMutable hfind
    cases hfind
  have hsmall : ∀ n : Int, 0 ≤ n → n ≤ 2 → HasIntegerType platform intType (.integer n) :=
    fun n hlow hhigh ht => ⟨n, rfl, integerFitsCoreType_small ht hlow hhigh⟩
  exact (hempty.insert (hsmall 1 (by decide) (by decide)) 1 true).insert
    (hsmall 0 (by decide) (by decide)) 2 true

theorem describes_sampleLocals (platform : Platform) : sampleFacts.Describes (sampleLocals platform) := by
  have hset : (setIntegerFact emptyIntegerFacts 2 (some (exactFact 0))).Describes (sampleLocals platform) := by
    refine (describes_empty (sampleLocals platform)).set (fun _ _ => rfl) ?_
    intro fact hfact
    cases hfact
    exact ⟨0, rfl, by decide⟩
  exact hset

/-- The general result at a run of the countdown from one. -/
theorem countdownLoop_sound :
    ∃ summary, loopFactSummary sampleFacts countdownLoop = some summary ∧
      SummarySound (integerDiscipline unitPlatform []) 1 sampleEnvironment
        ⟨true, .corePrimitive .coreGreaterThan [sampleVariable, .coreLiteral (.coreInteger 0) intType] boolType,
          [.coreAssign ⟨1, "x"⟩
            (.corePrimitive .coreSubtract [sampleVariable, .coreLiteral (.coreInteger 1) intType] intType)], []⟩
        (sampleLocals unitPlatform) emptyWorld summary :=
  (loopSummaries_sound countdownLoop).2 (by decide) unitPlatform [] (noCalls unitPlatform)
    (integerDiscipline unitPlatform []) 1 sampleEnvironment unitType .outsideLoop _ sampleFacts
    (sampleLocals unitPlatform) emptyWorld rfl (by decide) (holds_sampleLocals unitPlatform)
    (describes_sampleLocals unitPlatform)

/-- The body is said to be unreachable, so the header keeps what held on entry. -/
theorem loopFactSummary_doubled {summary : LoopFactSummary}
    (h : loopFactSummary sampleFacts doubledLoop = some summary) : summary.loopHeaderFacts = sampleFacts := by
  cases h
  show (iterateHeader _ 0 sampleFacts).loopHeaderFacts = sampleFacts
  apply header_iterateHeader
  rfl

/-- **The test `x + x` is misread**: the loop runs once, and arrives at its header again with five in `y`. -/
theorem not_summariesSoundFor_doubled : ¬ SummariesSoundFor doubledLoop := by
  intro hsound
  obtain ⟨summary, hsummary, hruns⟩ := hsound unitPlatform [] (noCalls unitPlatform)
    (integerDiscipline unitPlatform []) 1 sampleEnvironment unitType .outsideLoop _ sampleFacts
    (sampleLocals unitPlatform) emptyWorld rfl (by decide) (holds_sampleLocals unitPlatform)
    (describes_sampleLocals unitPlatform)
  have harrives := (hruns.arrivals (.again (.taken .enter rfl rfl) rfl (Or.inl rfl) rfl)).2
  rw [loopFactSummary_doubled hsummary] at harrives
  obtain ⟨value, hvalue, hzero⟩ := harrives 2 (exactFact 0) rfl
  cases hvalue
  exact absurd hzero (by decide)

end Tala.Core.Optimizer
