import Tala.Core.Semantics
import Tala.Native.IR

/-!
# `Native.Returns` — whether statements always return, in both verifiers

The native verifier answers the question of `statementsAlwaysReturn` with a list of pending statements in the
search for a `break` and a loop along `else if` chains (`alwaysReturns_ofCoreMany`).

`Ends` says how code may end, with any outcome of a condition that is not a literal, and every finished run
of the reference semantics is one of these (`ends_of_executeAll`). Statements that always return do not fall
off their end. They can be left by a `break` or a `continue` that they hold outside of their own loops
(`Ends.leaves`), which the body of a function cannot have.
-/

namespace Tala.Native

open Tala Tala.Core Tala.Library

/-! ## The native check -/

/-- Whether a `break` leaves the loop around the statements or the pending ones. A `break` in a nested loop
leaves that loop. -/
def searchBreak : List Statement → List (List Statement) → Bool
  | [], [] => false
  | [], statements :: pending => searchBreak statements pending
  | .breakLoop :: _, _ => true
  | .cond _ trueBranch falseBranch :: rest, pending =>
      searchBreak rest (falseBranch :: trueBranch :: pending)
  | _ :: rest, pending => searchBreak rest pending
termination_by statements pending => sizeOf statements + (pending.map sizeOf).sum
decreasing_by all_goals simp; try omega

def isLiteralTrue : Expression → Bool
  | .literal (.boolean true) _ => true
  | _ => false

/-- A loop whose condition is the literal true and that no `break` leaves. -/
def cannotBeLeft : Statement → Bool
  | .whileLoop condition loopBody => isLiteralTrue condition && !searchBreak [] [[], loopBody]
  | .doWhile loopBody condition => isLiteralTrue condition && !searchBreak [] [[], loopBody]
  | .forLoop condition loopBody loopUpdate => isLiteralTrue condition && !searchBreak [] [loopUpdate, loopBody]
  | _ => false

def isReturn : Statement → Bool
  | .ret _ => true
  | _ => false

/-- Whether control can never fall off the end of the statements. An `if` at their end is decided by its false
branch, an earlier one that does not return lets the statements after it decide. -/
def alwaysReturns : List Statement → Bool
  | [] => false
  | .cond _ trueBranch falseBranch :: rest =>
      if falseBranch.isEmpty || !alwaysReturns trueBranch then alwaysReturns rest
      else if rest.isEmpty then alwaysReturns falseBranch
      else if alwaysReturns falseBranch then true
      else alwaysReturns rest
  | statement :: rest => if isReturn statement || cannotBeLeft statement then true else alwaysReturns rest
termination_by statements => sizeOf statements
decreasing_by
  all_goals
    simp only [List.cons.sizeOf_spec, Statement.cond.sizeOf_spec]
    omega

/-! ## Ways to end -/

inductive Exit
  | falls | breaks | continues | returns
deriving DecidableEq, Repr

/-- A condition may have the value. A literal has its own. -/
def mayBe : Expression → Bool → Prop
  | .literal (.boolean value) _, outcome => value = outcome
  | _, _ => True

/-- What a loop does after a body or an update that ends so. -/
def Exit.ofLoop : Exit → Option Exit
  | .breaks => some .falls
  | .returns => some .returns
  | _ => none

/-- What runs: a statement, statements, or the rounds of a loop with its condition tested first or not. -/
inductive Code
  | statement (statement : Statement)
  | statements (statements : List Statement)
  | rounds (condition : Expression) (loopBody loopUpdate : List Statement) (testFirst : Bool)

/-- Some run of the code ends so. -/
inductive Ends : Code → Exit → Prop
  | bind (symbol type mutableBinding value) : Ends (.statement (.bind symbol type mutableBinding value)) .falls
  | assign (destination expression) : Ends (.statement (.assign destination expression)) .falls
  | evaluate (expression) : Ends (.statement (.evaluate expression)) .falls
  | ret (expression) : Ends (.statement (.ret expression)) .returns
  | breakLoop : Ends (.statement .breakLoop) .breaks
  | continueLoop : Ends (.statement .continueLoop) .continues
  | cond {condition trueBranch falseBranch exit} (outcome : Bool) (hcondition : mayBe condition outcome)
      (hbranch : Ends (.statements (if outcome then trueBranch else falseBranch)) exit) :
      Ends (.statement (.cond condition trueBranch falseBranch)) exit
  | whileLoop {condition loopBody exit} (hrounds : Ends (.rounds condition loopBody [] true) exit) :
      Ends (.statement (.whileLoop condition loopBody)) exit
  | doWhile {condition loopBody exit} (hrounds : Ends (.rounds condition loopBody [] false) exit) :
      Ends (.statement (.doWhile loopBody condition)) exit
  | forLoop {condition loopBody loopUpdate exit} (hrounds : Ends (.rounds condition loopBody loopUpdate true) exit) :
      Ends (.statement (.forLoop condition loopBody loopUpdate)) exit
  | nil : Ends (.statements []) .falls
  | next {statement rest exit} (hstatement : Ends (.statement statement) .falls)
      (hrest : Ends (.statements rest) exit) : Ends (.statements (statement :: rest)) exit
  | leave {statement rest exit} (hstatement : Ends (.statement statement) exit) (hexit : exit ≠ .falls) :
      Ends (.statements (statement :: rest)) exit
  | done {condition loopBody loopUpdate} (hcondition : mayBe condition false) :
      Ends (.rounds condition loopBody loopUpdate true) .falls
  | body {condition loopBody loopUpdate testFirst exit left} (hbody : Ends (.statements loopBody) exit)
      (hleft : exit.ofLoop = some left) : Ends (.rounds condition loopBody loopUpdate testFirst) left
  | update {condition loopBody loopUpdate testFirst exit left} (hupdate : Ends (.statements loopUpdate) exit)
      (hleft : exit.ofLoop = some left) : Ends (.rounds condition loopBody loopUpdate testFirst) left
  | again {condition loopBody loopUpdate testFirst exit}
      (hrest : Ends (.rounds condition loopBody loopUpdate true) exit) :
      Ends (.rounds condition loopBody loopUpdate testFirst) exit

mutual

/-- The statement has a transfer of this kind outside of its own loops. -/
def Statement.transfers (exit : Exit) : Statement → Bool
  | .breakLoop => exit = .breaks
  | .continueLoop => exit = .continues
  | .cond _ trueBranch falseBranch => anyTransfers exit trueBranch || anyTransfers exit falseBranch
  | _ => false

def anyTransfers (exit : Exit) : List Statement → Bool
  | [] => false
  | statement :: rest => statement.transfers exit || anyTransfers exit rest

end

/-- The statement is not passed: what `alwaysReturns` asks of each one. -/
def Statement.stops : Statement → Bool
  | .cond _ trueBranch falseBranch => alwaysReturns trueBranch && alwaysReturns falseBranch
  | statement => isReturn statement || cannotBeLeft statement

theorem alwaysReturns_nil : alwaysReturns [] = false := by
  rw [alwaysReturns]

/-- **The loop along the statements** asks the same of each of them. -/
theorem alwaysReturns_cons (statement : Statement) (rest : List Statement) :
    alwaysReturns (statement :: rest) = (statement.stops || alwaysReturns rest) := by
  cases statement with
  | cond condition trueBranch falseBranch =>
      rw [alwaysReturns]
      show _ = ((alwaysReturns trueBranch && alwaysReturns falseBranch) || alwaysReturns rest)
      cases falseBranch with
      | nil => simp [alwaysReturns_nil]
      | cons first later =>
          cases htrue : alwaysReturns trueBranch with
          | false => simp
          | true =>
              cases rest with
              | nil => simp [alwaysReturns_nil]
              | cons second last => cases alwaysReturns (first :: later) <;> simp
  | bind | assign | ret | evaluate | whileLoop | doWhile | forLoop | breakLoop | continueLoop =>
      simp [alwaysReturns, Statement.stops]

/-- **The search with pending lists** finds what the structure of the statements holds. -/
theorem searchBreak_eq (statements : List Statement) (pending : List (List Statement)) :
    searchBreak statements pending = (anyTransfers .breaks statements || pending.any (anyTransfers .breaks)) := by
  fun_induction searchBreak statements pending with
  | case1 => rfl
  | case2 statements pending ih => rw [ih]; rfl
  | case3 => rfl
  | case4 condition trueBranch falseBranch rest pending ih =>
      rw [ih]
      simp only [anyTransfers, Statement.transfers, List.any_cons]
      cases anyTransfers .breaks trueBranch <;> cases anyTransfers .breaks falseBranch <;>
        cases anyTransfers .breaks rest <;> rfl
  | case5 statement rest pending hbreak hcond ih =>
      rw [ih]
      cases statement <;> simp_all [anyTransfers, Statement.transfers]

/-! ## What always returning means -/

/-- Code that holds a transfer of this kind outside of its own loops. -/
def Code.transfers (exit : Exit) : Code → Bool
  | .statement single => single.transfers exit
  | .statements list => anyTransfers exit list
  | .rounds _ _ _ _ => false

variable {exit : Exit}

/-- Only a transfer that the code holds leaves it by a `break` or a `continue`. -/
theorem Ends.transfers {code : Code} (h : Ends code exit)
    (hexit : exit = .breaks ∨ exit = .continues) : code.transfers exit = true := by
  induction h with
  | bind | assign | evaluate | ret | nil | done => simp at hexit
  | breakLoop => rfl
  | continueLoop => rfl
  | cond outcome _ _ ih =>
      have hbranch := ih hexit
      unfold Code.transfers Statement.transfers
      rw [Bool.or_eq_true]
      cases outcome with
      | true => exact Or.inl hbranch
      | false => exact Or.inr hbranch
  | whileLoop _ ih | doWhile _ ih | forLoop _ ih => exact absurd (ih hexit) Bool.false_ne_true
  | next _ _ _ ih =>
      unfold Code.transfers anyTransfers
      rw [Bool.or_eq_true]
      exact Or.inr (ih hexit)
  | leave _ _ ih =>
      unfold Code.transfers anyTransfers
      rw [Bool.or_eq_true]
      exact Or.inl (ih hexit)
  | @body _ _ _ _ exit left _ hleft _ | @update _ _ _ _ exit left _ hleft _ =>
      cases exit <;> simp [Exit.ofLoop] at hleft <;> simp [← hleft] at hexit
  | again _ ih => exact absurd (ih hexit) Bool.false_ne_true

/-- Code whose end is not passed. -/
def Code.stops : Code → Bool
  | .statement single => single.stops
  | .statements list => alwaysReturns list
  | .rounds condition loopBody loopUpdate _ =>
      isLiteralTrue condition && !anyTransfers .breaks loopBody && !anyTransfers .breaks loopUpdate

theorem cannotBeLeft_forLoop (condition : Expression) (loopBody loopUpdate : List Statement) :
    cannotBeLeft (.forLoop condition loopBody loopUpdate)
      = (isLiteralTrue condition && !anyTransfers .breaks loopBody && !anyTransfers .breaks loopUpdate) := by
  show (isLiteralTrue condition && !searchBreak [] [loopUpdate, loopBody]) = _
  rw [searchBreak_eq]
  simp only [anyTransfers, List.any_cons, List.any_nil]
  cases isLiteralTrue condition <;> cases anyTransfers .breaks loopBody <;>
    cases anyTransfers .breaks loopUpdate <;> rfl

theorem cannotBeLeft_whileLoop (condition : Expression) (loopBody : List Statement) :
    cannotBeLeft (.whileLoop condition loopBody) = cannotBeLeft (.forLoop condition loopBody []) := rfl

theorem cannotBeLeft_doWhile (condition : Expression) (loopBody : List Statement) :
    cannotBeLeft (.doWhile loopBody condition) = cannotBeLeft (.forLoop condition loopBody []) := rfl

theorem mayBe_true {condition : Expression} (hliteral : isLiteralTrue condition = true) : ¬ mayBe condition false := by
  unfold isLiteralTrue at hliteral
  split at hliteral
  · intro h
    cases h
  · cases hliteral

/-- A body or an update that ends the loop holds a `break`, unless it returns. -/
theorem ofLoop_falls (h : exit.ofLoop = some .falls) : exit = .breaks := by
  cases exit with
  | breaks => rfl
  | falls | continues => cases h
  | returns => cases h

/-- **The end of code that stops is not passed.** -/
theorem Ends.not_falls {code : Code} (h : Ends code exit) (hexit : exit = .falls) : code.stops = false := by
  induction h with
  | bind | assign | evaluate => rfl
  | ret | breakLoop | continueLoop => cases hexit
  | cond outcome _ _ ih =>
      have hbranch := ih hexit
      unfold Code.stops Statement.stops
      dsimp only
      rw [Bool.and_eq_false_iff]
      cases outcome with
      | true => exact Or.inl hbranch
      | false => exact Or.inr hbranch
  | @whileLoop condition loopBody _ _ ih =>
      show cannotBeLeft (.whileLoop condition loopBody) = false
      rw [cannotBeLeft_whileLoop, cannotBeLeft_forLoop]
      exact ih hexit
  | @doWhile condition loopBody _ _ ih =>
      show cannotBeLeft (.doWhile loopBody condition) = false
      rw [cannotBeLeft_doWhile, cannotBeLeft_forLoop]
      exact ih hexit
  | @forLoop condition loopBody loopUpdate _ _ ih =>
      show cannotBeLeft (.forLoop condition loopBody loopUpdate) = false
      rw [cannotBeLeft_forLoop]
      exact ih hexit
  | nil => exact alwaysReturns_nil
  | next _ _ ihstatement ihrest =>
      show alwaysReturns _ = false
      rw [alwaysReturns_cons, Bool.or_eq_false_iff]
      exact ⟨ihstatement rfl, ihrest hexit⟩
  | leave _ hne _ => exact absurd hexit hne
  | @done condition _ _ hcondition =>
      show (isLiteralTrue condition && _ && _) = false
      cases hliteral : isLiteralTrue condition with
      | false => rfl
      | true => exact absurd hcondition (mayBe_true hliteral)
  | @body condition loopBody loopUpdate _ _ _ hbody hleft _ =>
      subst hexit
      have hbreak := ofLoop_falls hleft
      have hholds : anyTransfers _ loopBody = true := hbody.transfers (Or.inl hbreak)
      rw [hbreak] at hholds
      show (isLiteralTrue condition && !anyTransfers .breaks loopBody && _) = false
      rw [hholds]
      simp
  | @update condition loopBody loopUpdate _ _ _ hupdate hleft _ =>
      subst hexit
      have hbreak := ofLoop_falls hleft
      have hholds : anyTransfers _ loopUpdate = true := hupdate.transfers (Or.inl hbreak)
      rw [hbreak] at hholds
      show (isLiteralTrue condition && _ && !anyTransfers .breaks loopUpdate) = false
      rw [hholds]
      simp
  | again _ ih => exact ih hexit

/-- The ways in which statements that always return may end. -/
def mayLeave (statements : List Statement) : Exit → Prop
  | .falls => False
  | .breaks => anyTransfers .breaks statements = true
  | .continues => anyTransfers .continues statements = true
  | .returns => True

theorem Ends.leaves {statements : List Statement} (h : Ends (.statements statements) exit)
    (hreturns : alwaysReturns statements = true) : mayLeave statements exit := by
  cases exit with
  | falls =>
      have hstops : alwaysReturns statements = false := h.not_falls rfl
      rw [hstops] at hreturns
      cases hreturns
  | breaks => exact h.transfers (Or.inl rfl)
  | continues => exact h.transfers (Or.inr rfl)
  | returns => trivial

/-! ## The reference semantics -/

section Runs

variable {platform : Platform} {functions : List CoreFunction} {invoke : Invoke platform} {fuel : Nat}
  {locals : Locals platform.Floating} {world world' : World platform.Floating}
  {ended : Flow platform.Floating × Locals platform.Floating} {spelling : Spelling}

def Exit.ofFlow {φ : Type} : Flow φ → Exit
  | .proceed => .falls
  | .breakLoop => .breaks
  | .continueLoop => .continues
  | .returnValue _ => .returns

variable {condition : CoreExpression}

/-- A condition of Core has a value that its native form may have. -/
theorem mayBe_ofCore {tested : Value platform.Floating} {flag : Bool}
    (htested : evaluate platform functions invoke condition locals world = .done tested world')
    (hflag : truth platform tested.observe = some flag) : mayBe (Expression.ofCore spelling condition) flag := by
  cases condition with
  | coreLiteral literal valueType =>
      cases literal with
      | coreBoolean value =>
          simp only [evaluate, Outcome.done.injEq] at htested
          rw [← htested.1] at hflag
          exact Option.some.inj hflag
      | coreInteger value =>
          have hspells := spelling.spells value
          show mayBe (.literal (spelling.payload value) (NativeType.ofCore valueType)) flag
          -- an integer is not spelled as a truth value
          cases hpayload : spelling.payload value with
          | boolean => rw [hpayload] at hspells; cases hspells
          | monostate | int64 | int32 | integer | floating | text => trivial
      | coreFloating | coreString | coreUnit | coreNull => trivial
  | coreVariable | coreApply | corePrimitive | coreLet | coreConditional | coreClosure => trivial

theorem Exit.ofFlow_falls {φ : Type} {flow : Flow φ} : Exit.ofFlow flow = .falls ↔ flow = .proceed := by
  cases flow <;> simp [Exit.ofFlow]

/-- What a loop does after its update. -/
def afterRound (platform : Platform) (functions : List CoreFunction) (invoke : Invoke platform)
    (condition : CoreExpression) (body update : Execution platform) (fuel : Nat)
    (updated : Flow platform.Floating × Locals platform.Floating) (world : World platform.Floating) :
    Run platform (Flow platform.Floating × Locals platform.Floating) :=
  match updated.1 with
  | .proceed => runLoop platform functions invoke condition body update fuel true updated.2 world
  | .breakLoop => .done (.proceed, updated.2) world
  | .returnValue value => .done (.returnValue value, updated.2) world
  | .continueLoop => .stuck

/-- **The rounds of a loop** end as its body and its update let them. The induction is on the iterations. -/
theorem ends_of_runLoop {body update : Execution platform} {loopBody loopUpdate : List Statement}
    (hbody : ∀ {locals world ended world'}, body locals world = .done ended world' →
      Ends (.statements loopBody) (Exit.ofFlow ended.1))
    (hupdate : ∀ {locals world ended world'}, update locals world = .done ended world' →
      Ends (.statements loopUpdate) (Exit.ofFlow ended.1)) {testFirst : Bool}
    (h : runLoop platform functions invoke condition body update fuel testFirst locals world
      = .done ended world') :
    Ends (.rounds (Expression.ofCore spelling condition) loopBody loopUpdate testFirst)
      (Exit.ofFlow ended.1) := by
  induction fuel generalizing testFirst locals world with
  | zero => cases h
  | succ fuel ih =>
      -- a round without its test
      have hround : ∀ {testFirst : Bool} {world : World platform.Floating},
          runLoop platform functions invoke condition body update (fuel + 1) false locals world
              = .done ended world' →
            Ends (.rounds (Expression.ofCore spelling condition) loopBody loopUpdate testFirst)
              (Exit.ofFlow ended.1) := by
        intro testFirst world h
        unfold runLoop at h
        simp only [Bool.false_eq_true, if_false, Outcome.bind_eq_done] at h
        obtain ⟨⟨flow, middle⟩, between, hrun, h⟩ := h
        have hexit := hbody hrun
        -- a body that proceeds or continues is followed by the update
        have hafter : ∀ {locals : Locals platform.Floating} {world : World platform.Floating},
            (update locals world).bind (fun updated world =>
                afterRound platform functions invoke condition body update fuel updated world)
              = .done ended world' →
              Ends (.rounds (Expression.ofCore spelling condition) loopBody loopUpdate testFirst)
                (Exit.ofFlow ended.1) := by
          intro locals world h
          rw [Outcome.bind_eq_done] at h
          obtain ⟨⟨flow, last⟩, between, hrun, h⟩ := h
          have hexit := hupdate hrun
          cases flow with
          | proceed => exact .again (ih h)
          | breakLoop =>
              cases h
              exact .update hexit rfl
          | returnValue value =>
              cases h
              exact .update hexit rfl
          | continueLoop => cases h
        cases flow with
        | breakLoop =>
            cases h
            exact .body hexit rfl
        | returnValue value =>
            cases h
            exact .body hexit rfl
        | proceed => exact hafter h
        | continueLoop => exact hafter h
      cases testFirst with
      | false => exact hround h
      | true =>
          have htested : (evaluate platform functions invoke condition locals world).bind (fun value world =>
              branchOn platform value world fun flag world =>
                if flag then runLoop platform functions invoke condition body update (fuel + 1) false locals world
                else .done (.proceed, locals) world) = .done ended world' := h
          rw [Outcome.bind_eq_done] at htested
          obtain ⟨tested, between, htested, h⟩ := htested
          obtain ⟨flag, hflag, h⟩ := branchOn_eq_done.mp h
          cases flag with
          | true => exact hround h
          | false =>
              cases h
              exact .done (mayBe_ofCore htested hflag)

/-- The statement ends as some run of its native form does. -/
def StatementEnds (platform : Platform) (functions : List CoreFunction) (invoke : Invoke platform) (fuel : Nat)
    (spelling : Spelling) (statement : CoreStatement) : Prop :=
  ∀ {locals world ended world'},
    execute platform functions invoke fuel statement locals world = .done ended world' →
      Ends (.statement (Statement.ofCore spelling statement)) (Exit.ofFlow ended.1)

def StatementsEnd (platform : Platform) (functions : List CoreFunction) (invoke : Invoke platform) (fuel : Nat)
    (spelling : Spelling) (statements : List CoreStatement) : Prop :=
  ∀ {locals world ended world'},
    executeAll platform functions invoke fuel statements locals world = .done ended world' →
      Ends (.statements (Statement.ofCoreMany spelling statements)) (Exit.ofFlow ended.1)

/-- The update of a loop that has none. -/
theorem ends_of_noUpdate {locals : Locals platform.Floating} {world : World platform.Floating}
    (h : (Outcome.done (Flow.proceed, locals) world : Run platform _) = .done ended world') :
    Ends (.statements []) (Exit.ofFlow ended.1) := by
  cases h
  exact .nil

mutual

/-- **Every finished run is one of the ways to end.** -/
theorem ends_of_execute : ∀ statement : CoreStatement,
    StatementEnds platform functions invoke fuel spelling statement
  | .coreBind name type isMutable value => by
      intro h
      obtain ⟨bound, _, rfl⟩ := execute_coreBind.mp h
      exact .bind _ _ _ _
  | .coreAssign name value => by
      intro h
      obtain ⟨assigned, _, _, rfl⟩ := execute_coreAssign.mp h
      exact .assign _ _
  | .coreReturn value => by
      intro h
      obtain ⟨result, _, rfl⟩ := execute_coreReturn.mp h
      exact .ret _
  | .coreEvaluate value => by
      intro h
      obtain ⟨result, _, rfl⟩ := execute_coreEvaluate.mp h
      exact .evaluate _
  | .coreIf condition whenTrue whenFalse => by
      intro h
      obtain ⟨tested, between, flag, htested, hflag, hbranch⟩ := execute_coreIf.mp h
      refine .cond flag (mayBe_ofCore htested hflag) ?_
      cases flag with
      | true => exact ends_of_executeAll whenTrue hbranch
      | false => exact ends_of_executeAll whenFalse hbranch
  | .coreWhile condition body => by
      intro h
      rw [execute] at h
      exact .whileLoop (ends_of_runLoop (ends_of_executeAll body) ends_of_noUpdate h)
  | .coreDoWhile body condition => by
      intro h
      rw [execute] at h
      exact .doWhile (ends_of_runLoop (ends_of_executeAll body) ends_of_noUpdate h)
  | .coreFor condition body update => by
      intro h
      rw [execute] at h
      exact .forLoop (ends_of_runLoop (ends_of_executeAll body) (ends_of_executeAll update) h)
  | .coreBreak => by
      intro h
      rw [execute] at h
      cases h
      exact .breakLoop
  | .coreContinue => by
      intro h
      rw [execute] at h
      cases h
      exact .continueLoop

theorem ends_of_executeAll : ∀ statements : List CoreStatement,
    StatementsEnd platform functions invoke fuel spelling statements
  | [] => by
      intro h
      rw [executeAll] at h
      cases h
      exact .nil
  | statement :: remaining => by
      intro h
      rcases executeAll_cons.mp h with ⟨hstatement, hleaves⟩ | ⟨locals', between, hstatement, hrest⟩
      · exact .leave (ends_of_execute statement hstatement) fun hfalls => hleaves (Exit.ofFlow_falls.mp hfalls)
      · exact .next (ends_of_execute statement hstatement) (ends_of_executeAll remaining hrest)

end

end Runs

/-! ## Both verifiers agree -/

section Agreement

variable (spelling : Spelling)

theorem isLiteralTrue_ofCore (condition : CoreExpression) :
    isLiteralTrue (Expression.ofCore spelling condition) = Core.isLiteralTrue condition := by
  cases condition with
  | coreLiteral literal valueType =>
      cases literal with
      | coreBoolean value => cases value <;> rfl
      | coreInteger value =>
          have hspells := spelling.spells value
          show isLiteralTrue (.literal (spelling.payload value) (NativeType.ofCore valueType)) = false
          cases hpayload : spelling.payload value with
          | boolean => rw [hpayload] at hspells; cases hspells
          | monostate | int64 | int32 | integer | floating | text => rfl
      | coreFloating | coreString | coreUnit | coreNull => rfl
  | coreVariable | coreApply | corePrimitive | coreLet | coreConditional | coreClosure => rfl

mutual

theorem transfers_ofCore : ∀ statement : CoreStatement,
    (Statement.ofCore spelling statement).transfers .breaks = breaks statement
  | .coreIf condition whenTrue whenFalse => by
      show (anyTransfers .breaks _ || anyTransfers .breaks _) = (leftByBreak whenTrue || leftByBreak whenFalse)
      rw [anyTransfers_ofCoreMany whenTrue, anyTransfers_ofCoreMany whenFalse]
  | .coreBreak => rfl
  | .coreContinue => rfl
  | .coreBind _ _ _ _ => rfl
  | .coreAssign _ _ => rfl
  | .coreReturn _ => rfl
  | .coreEvaluate _ => rfl
  | .coreWhile _ _ => rfl
  | .coreDoWhile _ _ => rfl
  | .coreFor _ _ _ => rfl

theorem anyTransfers_ofCoreMany : ∀ statements : List CoreStatement,
    anyTransfers .breaks (Statement.ofCoreMany spelling statements) = leftByBreak statements
  | [] => rfl
  | statement :: remaining => by
      show (_ || anyTransfers .breaks _) = (breaks statement || leftByBreak remaining)
      rw [transfers_ofCore statement, anyTransfers_ofCoreMany remaining]

end

theorem leftByBreak_append (body update : List CoreStatement) :
    leftByBreak (body ++ update) = (leftByBreak body || leftByBreak update) := by
  induction body with
  | nil => rfl
  | cons statement rest ih =>
      show (breaks statement || leftByBreak (rest ++ update)) = ((breaks statement || leftByBreak rest) || _)
      rw [ih, Bool.or_assoc]

/-- A loop of either verifier. -/
theorem cannotBeLeft_ofCore (condition : CoreExpression) (body update : List CoreStatement) :
    cannotBeLeft (.forLoop (Expression.ofCore spelling condition) (Statement.ofCoreMany spelling body)
      (Statement.ofCoreMany spelling update)) = Core.cannotBeLeft condition (body ++ update) := by
  rw [cannotBeLeft_forLoop, isLiteralTrue_ofCore, anyTransfers_ofCoreMany, anyTransfers_ofCoreMany]
  unfold Core.cannotBeLeft
  rw [leftByBreak_append, Bool.not_or, Bool.and_assoc]

mutual

theorem stops_ofCore : ∀ statement : CoreStatement,
    (Statement.ofCore spelling statement).stops = statementAlwaysReturns statement
  | .coreIf condition whenTrue whenFalse => by
      show (alwaysReturns _ && alwaysReturns _)
        = (!whenFalse.isEmpty && statementsAlwaysReturn whenTrue && statementsAlwaysReturn whenFalse)
      rw [alwaysReturns_ofCoreMany whenTrue, alwaysReturns_ofCoreMany whenFalse]
      cases whenFalse with
      | nil => cases statementsAlwaysReturn whenTrue <;> rfl
      | cons => rfl
  | .coreWhile condition body => by
      have hloop := cannotBeLeft_ofCore spelling condition body []
      rw [List.append_nil] at hloop
      exact hloop
  | .coreDoWhile body condition => by
      have hloop := cannotBeLeft_ofCore spelling condition body []
      rw [List.append_nil] at hloop
      exact hloop
  | .coreFor condition body update => cannotBeLeft_ofCore spelling condition body update
  | .coreReturn _ => rfl
  | .coreBreak => rfl
  | .coreContinue => rfl
  | .coreBind _ _ _ _ => rfl
  | .coreAssign _ _ => rfl
  | .coreEvaluate _ => rfl

/-- **Both verifiers give the same answer.** -/
theorem alwaysReturns_ofCoreMany : ∀ statements : List CoreStatement,
    alwaysReturns (Statement.ofCoreMany spelling statements) = statementsAlwaysReturn statements
  | [] => alwaysReturns_nil
  | statement :: remaining => by
      show alwaysReturns (_ :: Statement.ofCoreMany spelling remaining)
        = (statementAlwaysReturns statement || statementsAlwaysReturn remaining)
      rw [alwaysReturns_cons, stops_ofCore statement, alwaysReturns_ofCoreMany remaining]

end

end Agreement

/-- **Return completeness is sound and agreed on.** Statements that either verifier says always return do not
fall off their end, and only a `break` or a `continue` outside of their own loops leaves them otherwise. -/
theorem returnCompleteness_sound :
    (∀ statements exit, alwaysReturns statements = true → Ends (.statements statements) exit →
      mayLeave statements exit) ∧
    (∀ spelling statements, alwaysReturns (Statement.ofCoreMany spelling statements)
      = statementsAlwaysReturn statements) ∧
    (∀ (platform : Platform) (functions : List CoreFunction) (invoke : Invoke platform) (fuel : Nat)
      (spelling : Spelling) (statements : List CoreStatement) (locals : Locals platform.Floating)
      (world : World platform.Floating) ended world', statementsAlwaysReturn statements = true →
      executeAll platform functions invoke fuel statements locals world = .done ended world' →
        mayLeave (Statement.ofCoreMany spelling statements) (Exit.ofFlow ended.1)) := by
  refine ⟨fun statements exit hreturns hends => hends.leaves hreturns, alwaysReturns_ofCoreMany, ?_⟩
  intro platform functions invoke fuel spelling statements locals world ended world' hreturns hrun
  have hends : Ends (.statements (Statement.ofCoreMany spelling statements)) (Exit.ofFlow ended.1) :=
    ends_of_executeAll statements hrun
  exact hends.leaves ((alwaysReturns_ofCoreMany spelling statements).trans hreturns)

/-- A loop that a nested loop's `break` does not leave, and a `return` in it. -/
def endlessLoop : Statement :=
  .whileLoop (.literal (.boolean true) .boolean)
    [.whileLoop (.var ⟨1, "more"⟩ .boolean) [.breakLoop], .ret (.literal .monostate (.scalar .unit))]

theorem returnCompleteness_sound_endlessLoop : alwaysReturns [endlessLoop] = true ∧
    Ends (.statements [endlessLoop]) .returns ∧ ¬ Ends (.statements [endlessLoop]) .falls := by
  have hreturns : alwaysReturns [endlessLoop] = true := by
    simp [endlessLoop, alwaysReturns, cannotBeLeft, searchBreak, isReturn, isLiteralTrue]
  have hskip : Ends (.statement (.whileLoop (.var ⟨1, "more"⟩ .boolean) [.breakLoop])) .falls :=
    .whileLoop (.done trivial)
  refine ⟨hreturns, ?_, fun hfalls => returnCompleteness_sound.1 _ _ hreturns hfalls⟩
  refine .leave (.whileLoop (.body (.next hskip (.leave (.ret _) ?_)) rfl)) ?_ <;> decide

/-- Statements that always return and that their `break` leaves. -/
theorem leaves_break_return :
    statementsAlwaysReturn [.coreBreak, .coreReturn (.coreLiteral .coreUnit unitType)] = true ∧
    ∀ (platform : Platform) (functions : List CoreFunction) (invoke : Invoke platform) (fuel : Nat)
      (locals : Locals platform.Floating) (world : World platform.Floating),
      executeAll platform functions invoke fuel
        [.coreBreak, .coreReturn (.coreLiteral .coreUnit unitType)] locals world
        = .done (.breakLoop, locals) world := by
  refine ⟨rfl, fun platform functions invoke fuel locals world => ?_⟩
  rw [executeAll, execute]
  rfl

end Tala.Native
