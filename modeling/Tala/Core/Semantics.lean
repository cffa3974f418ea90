import Tala.Library.Outcome
import Tala.Core.Value

/-!
# `Core.Semantics` — reference semantics of Core

Statements run in order on a table of locals, expressions left to right. A closure runs on its captures
and its arguments alone, a callable that remembers its result keeps it in a cell of the world, and a
call of a module function names it by its symbol. What a run writes to the console is recorded in order.

`evaluate` and `executeAll` are structural; calls go through a parameter (`Invoke`), and `invoke` ties
the knot with a budget of nested calls and loop iterations. A result that is not `exhausted` does not
depend on the budget.
-/

namespace Tala.Core

open Tala Tala.Library

/-- What a run carries from step to step besides its locals. -/
structure World (φ : Type) where
  /-- Every console write: its target and the text. -/
  written : List (Int × String)
  /-- Results that callables have remembered. -/
  cells : List (Nat × Value φ)
  nextCell : Nat

/-- Local values by symbol. -/
abbrev Locals (φ : Type) := Int → Option (Value φ)

namespace Locals

variable {φ : Type}

def set (locals : Locals φ) (symbol : Int) (value : Value φ) : Locals φ :=
  fun s => if s = symbol then some value else locals s

@[simp] theorem set_same (locals : Locals φ) (symbol : Int) (value : Value φ) :
    locals.set symbol value symbol = some value := by simp [set]

theorem set_other {locals : Locals φ} {symbol other : Int} {value : Value φ} (h : other ≠ symbol) :
    locals.set symbol value other = locals other := by simp [set, h]

/-- The locals a callable starts with: the first entry of a symbol counts. -/
def ofList (entries : List (Int × Value φ)) : Locals φ := fun symbol => entries.lookup symbol

end Locals

/-- How a statement ends. -/
inductive Flow (φ : Type)
  | proceed
  | breakLoop
  | continueLoop
  | returnValue (value : Value φ)

section Evaluation

variable (platform : Platform)

/-- Outcome of a Core computation. -/
abbrev Run (α : Type) := Outcome Trap (World platform.Floating) α

/-- How a callable value is applied to arguments. -/
abbrev Invoke := Value platform.Floating → List (Value platform.Floating) →
  World platform.Floating → Run platform (Value platform.Floating)

/-- A function named where a value is expected is a closure without captures. -/
def functionValue (function : CoreFunction) : Value platform.Floating :=
  .closure [] (function.coreFunctionParameters.map fun p => p.1.resolvedSymbol)
    function.coreFunctionBody

/-- The function with the given symbol. -/
def functionOf (functions : List CoreFunction) (symbol : Int) : Option CoreFunction :=
  functions.find? fun function => function.symbol = symbol

/-- The function a call names directly. -/
def directCallee (functions : List CoreFunction) : CoreExpression → Option CoreFunction
  | .coreVariable name _ => functionOf functions name.resolvedSymbol
  | _ => none

/-- A function of the runtime, applied to its operands. -/
def applyRuntime (function : RuntimeFunction) (operands : List (Datum platform.Floating))
    (world : World platform.Floating) : Run platform (Value platform.Floating) :=
  match function, operands with
  | .consoleWrite, [.text text, .integer target] =>
      .done .unit { world with written := world.written ++ [(target, text)] }
  | .consoleWrite, _ => .stuck
  | .textConcat, [.text left, .text right] => .done (.text (left ++ right)) world
  | .textEquals, [.text left, .text right] => .done (.boolean (left = right)) world
  | .textEquals, [left, right] => .done (.boolean (platform.identical left right)) world
  | .textEquals, _ => .stuck
  | function, operands => .done (.text (platform.runtimeText function operands)) world

/-- The result of an eager primitive on values. -/
def finishPrimitive (primitive : CorePrimitive) (valueType : Ty)
    (operands : List (Value platform.Floating)) (world : World platform.Floating) :
    Run platform (Value platform.Floating) :=
  match applyPrimitive platform primitive valueType (operands.map Value.observe) with
  | .result value => .done value.toValue world
  | .stops trap => .stopped trap world
  | .undefined => .stuck

/-- Remembering takes a cell that no other callable has; the callable is not called. -/
def finishMemoize (valueType : Ty) (target : Value platform.Floating)
    (world : World platform.Floating) : Run platform (Value platform.Floating) :=
  match target, valueType with
  | .closure captured [] body, .functionType [] result =>
      .done (.memo world.nextCell result (.closure captured [] body))
        { world with nextCell := world.nextCell + 1 }
  | _, _ => .stuck

/-- Continue with the truth of a value. -/
def branchOn {α : Type} (value : Value platform.Floating) (world : World platform.Floating)
    (next : Bool → World platform.Floating → Run platform α) : Run platform α :=
  match truth platform value.observe with
  | some flag => next flag world
  | none => .stuck

/-- Read a name: a local, or a function of the module. -/
def readName (functions : List CoreFunction) (locals : Locals platform.Floating) (name : ResolvedName)
    (world : World platform.Floating) : Run platform (Value platform.Floating) :=
  match locals name.resolvedSymbol with
  | some value => .done value world
  | none =>
      match functionOf functions name.resolvedSymbol with
      | some function => .done (functionValue platform function) world
      | none => .stuck

variable (functions : List CoreFunction) (invoke : Invoke platform)

mutual

/-- The value of an expression. The binding of a `let` is visible in its body alone. -/
def evaluate : CoreExpression → Locals platform.Floating → World platform.Floating →
    Run platform (Value platform.Floating)
  | .coreVariable name _ => fun locals world => readName platform functions locals name world
  | .coreLiteral literal valueType => fun _ world => .done (literalValue platform literal valueType) world
  | .coreLet name _ value body _ => fun locals world =>
      (evaluate value locals world).bind fun bound world =>
        evaluate body (locals.set name.resolvedSymbol bound) world
  | .coreConditional condition whenTrue whenFalse _ => fun locals world =>
      (evaluate condition locals world).bind fun value world =>
        branchOn platform value world fun flag world =>
          if flag then evaluate whenTrue locals world else evaluate whenFalse locals world
  | .corePrimitive primitive arguments valueType => fun locals world =>
      match primitive, arguments with
      -- the right operand runs only when the left one does not decide
      | .coreLogicalAnd, [left, right] =>
          (evaluate left locals world).bind fun value world =>
            branchOn platform value world fun flag world =>
              if flag then
                (evaluate right locals world).bind fun value world =>
                  branchOn platform value world fun flag world => .done (.boolean flag) world
              else .done (.boolean false) world
      | .coreLogicalOr, [left, right] =>
          (evaluate left locals world).bind fun value world =>
            branchOn platform value world fun flag world =>
              if flag then .done (.boolean true) world
              else
                (evaluate right locals world).bind fun value world =>
                  branchOn platform value world fun flag world => .done (.boolean flag) world
      | .coreMemoize, [operand] =>
          (evaluate operand locals world).bind fun target world =>
            finishMemoize platform valueType target world
      | .coreRuntimeCall, (identity :: operands) =>
          match runtimeFunctionNamed [identity] with
          | some function =>
              (evaluateMany operands locals world).bind fun values world =>
                applyRuntime platform function (values.map Value.observe) world
          | none => .stuck
      | primitive, arguments =>
          (evaluateMany arguments locals world).bind fun values world =>
            finishPrimitive platform primitive valueType values world
  | .coreApply callee arguments _ => fun locals world =>
      match directCallee functions callee with
      | some function =>
          (evaluateMany arguments locals world).bind fun values world =>
            invoke (functionValue platform function) values world
      -- the callee is evaluated before the arguments, like any operand
      | none =>
          (evaluate callee locals world).bind fun target world =>
            (evaluateMany arguments locals world).bind fun values world => invoke target values world
  | .coreClosure captures parameters _ body _ => fun locals world =>
      (evaluateCaptures captures locals world).bind fun captured world =>
        .done (.closure captured (parameters.map fun p => p.1.resolvedSymbol) body) world

def evaluateMany : List CoreExpression → Locals platform.Floating → World platform.Floating →
    Run platform (List (Value platform.Floating))
  | [] => fun _ world => .done [] world
  | expression :: remaining => fun locals world =>
      (evaluate expression locals world).bind fun value world =>
        (evaluateMany remaining locals world).bind fun values world => .done (value :: values) world

/-- The values of captures, under their names. -/
def evaluateCaptures : List CoreCapture → Locals platform.Floating → World platform.Floating →
    Run platform (List (Int × Value platform.Floating))
  | [] => fun _ world => .done [] world
  | .coreCapture _ name _ value :: remaining => fun locals world =>
      (evaluate value locals world).bind fun value world =>
        (evaluateCaptures remaining locals world).bind fun values world =>
          .done ((name.resolvedSymbol, value) :: values) world

end

/-- A statement or a list of them: how it ends and the locals it leaves. -/
abbrev Execution := Locals platform.Floating → World platform.Floating →
  Run platform (Flow platform.Floating × Locals platform.Floating)

/-- Run one structured loop. The condition is tested before the first iteration when `testFirst` holds;
`continue` ends the body, runs the update and then tests the condition. -/
def runLoop (condition : CoreExpression) (body update : Execution platform) :
    Nat → Bool → Execution platform
  | 0, _ => fun _ _ => .exhausted
  | fuel + 1, testFirst => fun locals world =>
      let iteration (world : World platform.Floating) :=
        (body locals world).bind fun ended world =>
          match ended.1 with
          | .breakLoop => .done (.proceed, ended.2) world
          | .returnValue value => .done (.returnValue value, ended.2) world
          | _ =>
              (update ended.2 world).bind fun updated world =>
                match updated.1 with
                | .proceed => runLoop condition body update fuel true updated.2 world
                | .breakLoop => .done (.proceed, updated.2) world
                | .returnValue value => .done (.returnValue value, updated.2) world
                | .continueLoop => .stuck
      if testFirst then
        (evaluate platform functions invoke condition locals world).bind fun value world =>
          branchOn platform value world fun flag world =>
            if flag then iteration world else .done (.proceed, locals) world
      else iteration world

variable (fuel : Nat)

mutual

/-- Run one statement. -/
def execute : CoreStatement → Execution platform
  | .coreBind name _ _ value => fun locals world =>
      (evaluate platform functions invoke value locals world).bind fun value world =>
        .done (.proceed, locals.set name.resolvedSymbol value) world
  | .coreAssign name value => fun locals world =>
      (evaluate platform functions invoke value locals world).bind fun value world =>
        -- an assignment never introduces a local
        if (locals name.resolvedSymbol).isSome then
          .done (.proceed, locals.set name.resolvedSymbol value) world
        else .stuck
  | .coreReturn value => fun locals world =>
      (evaluate platform functions invoke value locals world).bind fun value world =>
        .done (.returnValue value, locals) world
  | .coreEvaluate value => fun locals world =>
      (evaluate platform functions invoke value locals world).bind fun _ world =>
        .done (.proceed, locals) world
  | .coreIf condition whenTrue whenFalse => fun locals world =>
      (evaluate platform functions invoke condition locals world).bind fun value world =>
        branchOn platform value world fun flag world =>
          if flag then executeAll whenTrue locals world else executeAll whenFalse locals world
  | .coreWhile condition body => fun locals world =>
      runLoop platform functions invoke condition (fun l w => executeAll body l w)
        (fun l w => .done (.proceed, l) w) fuel true locals world
  | .coreDoWhile body condition => fun locals world =>
      runLoop platform functions invoke condition (fun l w => executeAll body l w)
        (fun l w => .done (.proceed, l) w) fuel false locals world
  | .coreFor condition body update => fun locals world =>
      runLoop platform functions invoke condition (fun l w => executeAll body l w)
        (fun l w => executeAll update l w) fuel true locals world
  | .coreBreak => fun locals world => .done (.breakLoop, locals) world
  | .coreContinue => fun locals world => .done (.continueLoop, locals) world

/-- Run statements until one of them does not proceed. -/
def executeAll : List CoreStatement → Execution platform
  | [] => fun locals world => .done (.proceed, locals) world
  | statement :: remaining => fun locals world =>
      (execute statement locals world).bind fun ended world =>
        match ended.1 with
        | .proceed => executeAll remaining ended.2 world
        | flow => .done (flow, ended.2) world

end

end Evaluation

/-! ## What a finished execution did -/

section Inversions

attribute [local simp] evaluate evaluateMany evaluateCaptures execute executeAll

variable {platform : Platform} {functions : List CoreFunction} {invoke : Invoke platform} {fuel : Nat}
  {locals : Locals platform.Floating} {world world' : World platform.Floating}
  {ended : Flow platform.Floating × Locals platform.Floating} {name : ResolvedName} {bindingType : Ty}
  {isMutable : Bool} {value condition : CoreExpression} {statement : CoreStatement}
  {whenTrue whenFalse remaining : List CoreStatement}

theorem branchOn_eq_done {α : Type} {value : Value platform.Floating} {result : α}
    {next : Bool → World platform.Floating → Run platform α} :
    branchOn platform value world next = .done result world' ↔
      ∃ flag, truth platform value.observe = some flag ∧ next flag world = .done result world' := by
  unfold branchOn
  cases truth platform value.observe <;> simp

/-- What is evaluated before a step that leaves the world as it is. -/
theorem bind_done_eq_done {α β : Type} {outcome : Run platform α} {make : α → β} {result : β} :
    (outcome.bind fun value world => .done (make value) world) = .done result world' ↔
      ∃ value, outcome = .done value world' ∧ result = make value := by
  rw [Outcome.bind_eq_done]
  constructor
  · rintro ⟨value, between, houtcome, hresult⟩
    cases hresult
    exact ⟨value, houtcome, rfl⟩
  · rintro ⟨value, houtcome, rfl⟩
    exact ⟨value, world', houtcome, rfl⟩

theorem execute_coreBind :
    execute platform functions invoke fuel (.coreBind name bindingType isMutable value) locals world
        = .done ended world' ↔
      ∃ bound, evaluate platform functions invoke value locals world = .done bound world' ∧
        ended = (.proceed, locals.set name.resolvedSymbol bound) := by
  rw [execute, bind_done_eq_done]

theorem execute_coreAssign :
    execute platform functions invoke fuel (.coreAssign name value) locals world = .done ended world' ↔
      ∃ assigned, evaluate platform functions invoke value locals world = .done assigned world' ∧
        (locals name.resolvedSymbol).isSome = true ∧
        ended = (.proceed, locals.set name.resolvedSymbol assigned) := by
  rw [execute, Outcome.bind_eq_done]
  constructor
  · rintro ⟨assigned, between, hvalue, h⟩
    split at h
    · next hdefined =>
      cases h
      exact ⟨assigned, hvalue, hdefined, rfl⟩
    · cases h
  · rintro ⟨assigned, hvalue, hdefined, rfl⟩
    exact ⟨assigned, world', hvalue, if_pos hdefined⟩

theorem execute_coreReturn :
    execute platform functions invoke fuel (.coreReturn value) locals world = .done ended world' ↔
      ∃ result, evaluate platform functions invoke value locals world = .done result world' ∧
        ended = (.returnValue result, locals) := by
  rw [execute, bind_done_eq_done]

theorem execute_coreEvaluate :
    execute platform functions invoke fuel (.coreEvaluate value) locals world = .done ended world' ↔
      ∃ result, evaluate platform functions invoke value locals world = .done result world' ∧
        ended = (.proceed, locals) := by
  rw [execute, bind_done_eq_done]

/-- A condition is evaluated, and the arm it selects runs. -/
theorem execute_coreIf :
    execute platform functions invoke fuel (.coreIf condition whenTrue whenFalse) locals world
        = .done ended world' ↔
      ∃ tested between flag, evaluate platform functions invoke condition locals world = .done tested between ∧
        truth platform tested.observe = some flag ∧
        executeAll platform functions invoke fuel (if flag then whenTrue else whenFalse) locals between
          = .done ended world' := by
  rw [execute, Outcome.bind_eq_done]
  constructor
  · rintro ⟨tested, between, htested, h⟩
    obtain ⟨flag, hflag, h⟩ := branchOn_eq_done.mp h
    refine ⟨tested, between, flag, htested, hflag, ?_⟩
    cases flag <;> exact h
  · rintro ⟨tested, between, flag, htested, hflag, h⟩
    refine ⟨tested, between, htested, branchOn_eq_done.mpr ⟨flag, hflag, ?_⟩⟩
    cases flag <;> exact h

/-- A statement ends a block, or it proceeds and the rest of the block ends it. -/
theorem executeAll_cons :
    executeAll platform functions invoke fuel (statement :: remaining) locals world = .done ended world' ↔
      (execute platform functions invoke fuel statement locals world = .done ended world' ∧
        ended.1 ≠ .proceed) ∨
      ∃ locals' between,
        execute platform functions invoke fuel statement locals world = .done (.proceed, locals') between ∧
        executeAll platform functions invoke fuel remaining locals' between = .done ended world' := by
  rw [executeAll, Outcome.bind_eq_done]
  constructor
  · rintro ⟨⟨flow, locals'⟩, between, hstatement, h⟩
    cases flow with
    | proceed => exact Or.inr ⟨locals', between, hstatement, h⟩
    | breakLoop =>
        cases h
        exact Or.inl ⟨hstatement, nofun⟩
    | continueLoop =>
        cases h
        exact Or.inl ⟨hstatement, nofun⟩
    | returnValue value =>
        cases h
        exact Or.inl ⟨hstatement, nofun⟩
  · rintro (⟨hstatement, hends⟩ | ⟨locals', between, hstatement, h⟩)
    · refine ⟨ended, world', hstatement, ?_⟩
      obtain ⟨flow, locals'⟩ := ended
      cases flow with
      | proceed => exact absurd rfl hends
      | breakLoop => rfl
      | continueLoop => rfl
      | returnValue value => rfl
    · exact ⟨(.proceed, locals'), between, hstatement, h⟩

end Inversions

section Calls

variable (platform : Platform) (functions : List CoreFunction)

/-- The value a finished body returns. -/
def returned (flow : Flow platform.Floating) (world : World platform.Floating) :
    Run platform (Value platform.Floating) :=
  match flow with
  | .returnValue value => .done value world
  | .proceed => .done .unit world
  | _ => .stuck

/-- Apply a callable with a budget of nested calls, and of iterations of each loop. -/
def invoke : Nat → Invoke platform
  | 0 => fun _ _ _ => .exhausted
  | budget + 1 => fun target values world =>
      match target with
      | .closure captured parameters body =>
          if parameters.length = values.length then
            (executeAll platform functions (invoke budget) (budget + 1) body
              (Locals.ofList (parameters.zip values ++ captured)) world).bind fun ended world =>
                returned platform ended.1 world
          else .stuck
      | .memo cell _ computation =>
          if values.isEmpty then
            match world.cells.lookup cell with
            | some remembered => .done remembered world
            | none =>
                (invoke budget computation [] world).bind fun value world =>
                  .done value { world with cells := (cell, value) :: world.cells }
          else .stuck
      | _ => .stuck

/-- The world a run starts in. -/
def emptyWorld {φ : Type} : World φ := ⟨[], [], 0⟩

/-- Run a function on arguments. -/
def runFunction (budget : Nat) (function : CoreFunction) (arguments : List (Value platform.Floating)) :
    Run platform (Value platform.Floating) :=
  invoke platform functions budget (functionValue platform function) arguments emptyWorld

end Calls

end Tala.Core
