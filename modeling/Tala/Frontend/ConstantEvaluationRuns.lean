import Tala.Frontend.ConstantOperators
import Tala.Library.Codec

/-!
# `Frontend.ConstantEvaluationRuns` — compile-time values are those of a run

`ExactValue` is the value of an expression of integers, characters and Booleans, independent of both
evaluators: exact operators, `&&` and `||` deciding on their left operand, the selected arm of a choice.
`Evaluated` lists the parts of an expression that its evaluation reaches, and `EveryValueFits` bounds each
of them by its own type.

An expression whose values fit either runs to its exact value or stops, and the compile-time value is that
value unless a shift was refused (`Settled`). An error about a divisor is one of a run that stops, except
where an operand is skipped in the run and evaluated at compile time.
-/

namespace Tala.Frontend

open Tala.Core Tala.Library Tala.Syntax

section Specification

variable {name : Type}

/-! ## Typed expressions -/

/-- The type of a literal. -/
def LiteralTyped (valueType : Ty) : Literal → Prop
  | .integerLiteral _ => isIntegerType valueType = true ∨ valueType = boolType
  | .characterLiteral _ => valueType = namedType "char"
  | .booleanLiteral _ => valueType = boolType
  | .floatingLiteral _ => isFloatingType valueType = true
  | .stringLiteral _ => valueType = stringType
  | .unitLiteral => valueType = unitType

/-- An expression of literals and operators as the type checker accepts it. -/
inductive WellTyped : Expression name → Prop
  | literal {span : SourceSpan} {literal : Literal} {valueType : Ty} (typed : LiteralTyped valueType literal) :
      WellTyped (.literalExpression span literal valueType)
  | unary {span : SourceSpan} {operator : UnaryOperator} {value : Expression name} {valueType : Ty}
      (operand : WellTyped value)
      (rule : unaryNumericRule operator (expressionAnnotationOf value) = success valueType) :
      WellTyped (.unaryExpression span operator value valueType)
  | binary {span : SourceSpan} {operator : BinaryOperator} {left right : Expression name} {valueType : Ty}
      (typedLeft : WellTyped left) (typedRight : WellTyped right)
      (rule : binaryNumericRule operator (expressionAnnotationOf left) (expressionAnnotationOf right)
        = success valueType) :
      WellTyped (.binaryExpression span operator left right valueType)
  | conditional {span : SourceSpan} {condition first second : Expression name} {valueType : Ty}
      (typedCondition : WellTyped condition) (typedFirst : WellTyped first) (typedSecond : WellTyped second)
      (test : acceptsBooleanContext (expressionAnnotationOf condition) = true)
      (firstType : expressionAnnotationOf first = valueType)
      (secondType : expressionAnnotationOf second = valueType) :
      WellTyped (.conditionalExpression span condition first second valueType)
  | coalesce {span : SourceSpan} {left fallback : Expression name} {valueType : Ty}
      (typedLeft : WellTyped left) (typedFallback : WellTyped fallback)
      (leftType : expressionAnnotationOf left = valueType)
      (fallbackType : expressionAnnotationOf fallback = valueType) :
      WellTyped (.coalesceExpression span left fallback valueType)

/-! ## Exact values -/

/-- Whether the left operand of `&&` or `||` decides. -/
def Decides (operator : BinaryOperator) (left : Int) : Prop :=
  (operator = .logicalAnd ∧ left = 0) ∨ (operator = .logicalOr ∧ left ≠ 0)

/-- The value of an expression of integers, characters and Booleans. -/
inductive ExactValue : Expression name → Int → Prop
  | integer {span : SourceSpan} {value : Int} {valueType : Ty} :
      ExactValue (.literalExpression span (.integerLiteral value) valueType) value
  | character {span : SourceSpan} {scalar : Int} {valueType : Ty} :
      ExactValue (.literalExpression span (.characterLiteral scalar) valueType) scalar
  | boolean {span : SourceSpan} {flag : Bool} {valueType : Ty} :
      ExactValue (.literalExpression span (.booleanLiteral flag) valueType) (truthInteger flag)
  | unary {span : SourceSpan} {operator : UnaryOperator} {value : Expression name} {valueType : Ty}
      {number result : Int} (operand : ExactValue value number)
      (applied : UnaryValue valueType operator number result) :
      ExactValue (.unaryExpression span operator value valueType) result
  | binary {span : SourceSpan} {operator : BinaryOperator} {left right : Expression name} {valueType : Ty}
      {leftNumber rightNumber result : Int} (eager : isShortCircuit operator = false)
      (leftValue : ExactValue left leftNumber) (rightValue : ExactValue right rightNumber)
      (applied : BinaryValue valueType operator leftNumber rightNumber result) :
      ExactValue (.binaryExpression span operator left right valueType) result
  | decided {span : SourceSpan} {operator : BinaryOperator} {left right : Expression name} {valueType : Ty}
      {leftNumber : Int} (decides : Decides operator leftNumber) (leftValue : ExactValue left leftNumber) :
      ExactValue (.binaryExpression span operator left right valueType) (truthInteger (leftNumber ≠ 0))
  | undecided {span : SourceSpan} {operator : BinaryOperator} {left right : Expression name} {valueType : Ty}
      {leftNumber rightNumber : Int} (logical : isShortCircuit operator = true)
      (decides : ¬Decides operator leftNumber) (leftValue : ExactValue left leftNumber)
      (rightValue : ExactValue right rightNumber) :
      ExactValue (.binaryExpression span operator left right valueType) (truthInteger (rightNumber ≠ 0))
  | first {span : SourceSpan} {condition first second : Expression name} {valueType : Ty} {test result : Int}
      (tested : ExactValue condition test) (selected : test ≠ 0) (value : ExactValue first result) :
      ExactValue (.conditionalExpression span condition first second valueType) result
  | second {span : SourceSpan} {condition first second : Expression name} {valueType : Ty} {result : Int}
      (tested : ExactValue condition 0) (value : ExactValue second result) :
      ExactValue (.conditionalExpression span condition first second valueType) result
  | present {span : SourceSpan} {left fallback : Expression name} {valueType : Ty} {result : Int}
      (value : ExactValue left result) (selected : result ≠ 0) :
      ExactValue (.coalesceExpression span left fallback valueType) result
  | absent {span : SourceSpan} {left fallback : Expression name} {valueType : Ty} {result : Int}
      (tested : ExactValue left 0) (value : ExactValue fallback result) :
      ExactValue (.coalesceExpression span left fallback valueType) result

/-- The parts of an expression that its evaluation reaches. -/
inductive Evaluated : Expression name → Expression name → Prop
  | self {expression : Expression name} : Evaluated expression expression
  | operand {span : SourceSpan} {operator : UnaryOperator} {value part : Expression name} {valueType : Ty}
      (inside : Evaluated value part) : Evaluated (.unaryExpression span operator value valueType) part
  | left {span : SourceSpan} {operator : BinaryOperator} {left right part : Expression name} {valueType : Ty}
      (inside : Evaluated left part) : Evaluated (.binaryExpression span operator left right valueType) part
  | right {span : SourceSpan} {operator : BinaryOperator} {left right part : Expression name} {valueType : Ty}
      {leftNumber : Int} (leftValue : ExactValue left leftNumber) (decides : ¬Decides operator leftNumber)
      (inside : Evaluated right part) : Evaluated (.binaryExpression span operator left right valueType) part
  | condition {span : SourceSpan} {condition first second part : Expression name} {valueType : Ty}
      (inside : Evaluated condition part) :
      Evaluated (.conditionalExpression span condition first second valueType) part
  | first {span : SourceSpan} {condition first second part : Expression name} {valueType : Ty} {test : Int}
      (tested : ExactValue condition test) (selected : test ≠ 0) (inside : Evaluated first part) :
      Evaluated (.conditionalExpression span condition first second valueType) part
  | second {span : SourceSpan} {condition first second part : Expression name} {valueType : Ty}
      (tested : ExactValue condition 0) (inside : Evaluated second part) :
      Evaluated (.conditionalExpression span condition first second valueType) part
  | subject {span : SourceSpan} {left fallback part : Expression name} {valueType : Ty}
      (inside : Evaluated left part) : Evaluated (.coalesceExpression span left fallback valueType) part
  | fallback {span : SourceSpan} {left fallback part : Expression name} {valueType : Ty}
      (tested : ExactValue left 0) (inside : Evaluated fallback part) :
      Evaluated (.coalesceExpression span left fallback valueType) part

/-- Every part that is evaluated is an integer, a character or a Boolean, and its exact value fits its type. -/
def EveryValueFits (expression : Expression name) : Prop :=
  ∀ part, Evaluated expression part → IsScalar (expressionAnnotationOf part) ∧
    ∀ value, ExactValue part value → FitsType (expressionAnnotationOf part) value

/-- Every count that is evaluated lies between zero and the width of the shifted type. -/
def ShiftsInRange (expression : Expression name) : Prop :=
  ∀ span operator left right valueType leftNumber count,
    Evaluated expression (.binaryExpression span operator left right valueType) → IsShift operator →
    ExactValue left leftNumber → ExactValue right count → CountInRange valueType count

/-- No operand that `&&` or `||` skips is an error at compile time. -/
def SkipsNoError (expression : Expression name) : Prop :=
  ∀ span operator left right valueType leftNumber issue,
    Evaluated expression (.binaryExpression span operator left right valueType) →
    ExactValue left leftNumber → Decides operator leftNumber → evaluateConstantInteger right ≠ .error issue

end Specification

/-! ## Runs -/

section Runs

variable (platform : Platform) (functions : List CoreFunction) (invoke : Invoke platform)
  (locals : Locals platform.Floating) (world : World platform.Floating)

theorem evaluate_unary (operator : UnaryOperator) (operand : CoreExpression) (valueType : Ty) :
    evaluate platform functions invoke (.corePrimitive (lowerUnary operator) [operand] valueType) locals world
      = (evaluate platform functions invoke operand locals world).bind fun value world =>
          finishPrimitive platform (lowerUnary operator) valueType [value] world := by
  cases operator <;> simp only [lowerUnary, evaluate, evaluateMany, Outcome.bind_assoc, Outcome.bind_done]

variable {operator : BinaryOperator} {valueType : Ty}

theorem evaluate_eager (heager : isShortCircuit operator = false) (left right : CoreExpression) (valueType : Ty) :
    evaluate platform functions invoke (.corePrimitive (lowerBinary operator) [left, right] valueType) locals world
      = (evaluate platform functions invoke left locals world).bind fun leftValue world =>
          (evaluate platform functions invoke right locals world).bind fun rightValue world =>
            finishPrimitive platform (lowerBinary operator) valueType [leftValue, rightValue] world := by
  cases operator with
  | logicalAnd | logicalOr => cases heager
  | _ => simp only [lowerBinary, evaluate, evaluateMany, Outcome.bind_assoc, Outcome.bind_done]

variable {locals world} {platform functions invoke} {leftNumber : Int} {left right : CoreExpression}
  {leftType : Ty} {subject : ResolvedName}

/-- A left operand that decides is the result of `&&` and `||`. -/
theorem evaluate_decided (hdecides : Decides operator leftNumber)
    (hleft : evaluate platform functions invoke left locals world = .done (valueOf leftType leftNumber) world) :
    evaluate platform functions invoke (.corePrimitive (lowerBinary operator) [left, right] valueType) locals world
      = .done (.boolean (leftNumber ≠ 0)) world := by
  rcases hdecides with ⟨rfl, hzero⟩ | ⟨rfl, hzero⟩ <;>
    simp only [lowerBinary, evaluate, hleft, Outcome.bind_done, branchOn, truth_valueOf] <;> simp [hzero]

/-- Otherwise the truth of the right operand is. -/
theorem evaluate_undecided (hlogical : isShortCircuit operator = true) (hdecides : ¬Decides operator leftNumber)
    (hleft : evaluate platform functions invoke left locals world = .done (valueOf leftType leftNumber) world) :
    evaluate platform functions invoke (.corePrimitive (lowerBinary operator) [left, right] valueType) locals world
      = (evaluate platform functions invoke right locals world).bind fun value world =>
          branchOn platform value world fun flag world => .done (.boolean flag) world := by
  have hoperator : operator = .logicalAnd ∨ operator = .logicalOr := by simpa [isShortCircuit] using hlogical
  rcases hoperator with rfl | rfl
  · have hne : leftNumber ≠ 0 := fun hzero => hdecides (.inl ⟨rfl, hzero⟩)
    simp only [lowerBinary, evaluate, hleft, Outcome.bind_done, branchOn, truth_valueOf]
    simp [hne]
  · have hzero : leftNumber = 0 := of_not_not fun hne => hdecides (.inr ⟨rfl, hne⟩)
    simp only [lowerBinary, evaluate, hleft, Outcome.bind_done, branchOn, truth_valueOf]
    simp [hzero]

/-- The test of a conditional selects its arm. -/
theorem evaluate_conditional {condition first second : CoreExpression} {testType : Ty} {test : Int}
    (hcondition : evaluate platform functions invoke condition locals world = .done (valueOf testType test) world) :
    evaluate platform functions invoke (.coreConditional condition first second valueType) locals world
      = if test ≠ 0 then evaluate platform functions invoke first locals world
        else evaluate platform functions invoke second locals world := by
  simp only [evaluate, hcondition, Outcome.bind_done, branchOn, truth_valueOf]
  by_cases htest : test = 0 <;> simp [htest]

/-- The subject of `?:` is bound once; it is the result where it is not zero. -/
theorem evaluate_coalesce {fallback : CoreExpression}
    (hleft : evaluate platform functions invoke left locals world = .done (valueOf leftType leftNumber) world) :
    evaluate platform functions invoke (.coreLet subject valueType left
        (.coreConditional (.coreVariable subject valueType) (.coreVariable subject valueType) fallback valueType)
        valueType) locals world
      = if leftNumber ≠ 0 then .done (valueOf leftType leftNumber) world
        else evaluate platform functions invoke fallback
          (locals.set subject.resolvedSymbol (valueOf leftType leftNumber)) world := by
  simp only [evaluate, hleft, Outcome.bind_done, readName, Locals.set_same, branchOn, truth_valueOf]
  by_cases hzero : leftNumber = 0 <;> simp [hzero]

/-- A run that stops in its first part. -/
theorem bind_stopped_of {α β : Type} {outcome : Run platform α}
    {next : α → World platform.Floating → Run platform β}
    (h : ∃ trap, outcome = .stopped trap world) : ∃ trap, outcome.bind next = .stopped trap world := by
  obtain ⟨trap, rfl⟩ := h
  exact ⟨trap, rfl⟩

/-- Every binary operator evaluates its left operand first. -/
theorem evaluate_left_stopped
    (h : ∃ trap, evaluate platform functions invoke left locals world = .stopped trap world) :
    ∃ trap, evaluate platform functions invoke (.corePrimitive (lowerBinary operator) [left, right] valueType)
      locals world = .stopped trap world := by
  cases hoperator : isShortCircuit operator with
  | false =>
      rw [evaluate_eager _ _ _ _ _ hoperator]
      exact bind_stopped_of h
  | true =>
      have hlogical : operator = .logicalAnd ∨ operator = .logicalOr := by simpa [isShortCircuit] using hoperator
      rcases hlogical with rfl | rfl <;> simp only [lowerBinary, evaluate] <;> exact bind_stopped_of h

end Runs

/-! ## Literals -/

variable {literal : Literal}

theorem literal_scalar {valueType : Ty} (htyped : LiteralTyped valueType literal) (hscalar : IsScalar valueType) :
    (∃ value, literal = .integerLiteral value) ∨ (∃ scalar, literal = .characterLiteral scalar ∧
      isCoreIntegerType valueType = true) ∨ ∃ flag, literal = .booleanLiteral flag ∧ valueType = boolType := by
  cases literal with
  | integerLiteral value => exact .inl ⟨value, rfl⟩
  | characterLiteral scalar =>
      have hchar : valueType = namedType "char" := htyped
      subst hchar
      exact .inr (.inl ⟨scalar, rfl, by decide⟩)
  | booleanLiteral flag => exact .inr (.inr ⟨flag, rfl, htyped⟩)
  | floatingLiteral spelling =>
      obtain ⟨hcore, hbool⟩ := not_isCoreIntegerType_of_isFloatingType htyped
      rcases hscalar with hbool' | hcore'
      · exact absurd hbool' hbool
      · rw [hcore] at hcore'
        cases hcore'
  | stringLiteral text =>
      have hstring : valueType = stringType := htyped
      subst hstring
      exact absurd hscalar (by unfold IsScalar; decide)
  | unitLiteral =>
      have hunit : valueType = unitType := htyped
      subst hunit
      exact absurd hscalar (by unfold IsScalar; decide)

/-! ## Agreement -/

section Agreement

variable (platform : Platform) (functions : List CoreFunction) (invoke : Invoke platform)

/-- An expression runs to its exact value, and no other is its compile-time value; or it stops, and has a
compile-time value at most where a shift was refused. -/
def Settled (expression : Expression ResolvedName) (core : CoreExpression) (locals : Locals platform.Floating)
    (world : World platform.Floating) : Prop :=
  (∃ value, ExactValue expression value ∧
    evaluate platform functions invoke core locals world
      = .done (valueOf (expressionAnnotationOf expression) value) world ∧
    ∀ constant, evaluateConstantInteger expression = .ok (some constant) → constant = value) ∨
  (∃ trap, evaluate platform functions invoke core locals world = .stopped trap world) ∧
    ((∃ constant, evaluateConstantInteger expression = .ok (some constant)) → ¬ShiftsInRange expression)

variable {platform functions invoke} {locals : Locals platform.Floating} {world : World platform.Floating}
  {span : SourceSpan} {valueType : Ty} {value left right condition first second fallback : Expression ResolvedName}
  {core loweredLeft loweredRight loweredCondition loweredFirst loweredSecond loweredFallback : CoreExpression}

theorem settled_literal (htyped : LiteralTyped valueType literal) (hscalar : IsScalar valueType) :
    Settled platform functions invoke (.literalExpression span literal valueType)
      (.coreLiteral (lowerLiteral valueType literal) valueType) locals world := by
  rcases literal_scalar htyped hscalar with ⟨number, rfl⟩ | ⟨scalar, rfl, hcore⟩ | ⟨flag, rfl, rfl⟩
  · refine .inl ⟨number, .integer, ?_, fun constant hconstant => checkedValue_eq_ok hconstant⟩
    by_cases hbool : valueType = boolType <;>
      simp [evaluate, lowerLiteral, literalValue, expressionAnnotationOf, valueOf, hbool]
  · refine .inl ⟨scalar, .character, ?_, fun constant hconstant => checkedValue_eq_ok hconstant⟩
    show Outcome.done (Value.integer scalar) world = Outcome.done (valueOf valueType scalar) world
    rw [IsScalar.valueOf_integer hcore]
  · refine .inl ⟨truthInteger flag, .boolean, ?_, fun constant hconstant => checkedValue_eq_ok hconstant⟩
    show Outcome.done (Value.boolean flag) world = Outcome.done (valueOf boolType (truthInteger flag)) world
    rw [valueOf_truth]

variable {operator : BinaryOperator} {constant : Int} {expression : Expression ResolvedName}

/-- The compile-time value of a unary operator is made of one of its operand. -/
theorem evaluateConstantInteger_unary {operator : UnaryOperator}
    (h : evaluateConstantInteger (.unaryExpression span operator value valueType) = .ok (some constant)) :
    ∃ number, evaluateConstantInteger value = .ok (some number) ∧
      evaluateUnaryInteger operator valueType number = .ok (some constant) := by
  obtain ⟨operand, hoperand, h⟩ := Codec.bind_eq_ok.mp h
  cases operand with
  | none => cases h
  | some number => exact ⟨number, hoperand, h⟩

theorem evaluateConstantInteger_binary
    (h : evaluateConstantInteger (.binaryExpression span operator left right valueType) = .ok (some constant)) :
    ∃ leftNumber rightNumber, evaluateConstantInteger left = .ok (some leftNumber) ∧
      evaluateConstantInteger right = .ok (some rightNumber) ∧
      evaluateBinaryIntegers operator leftNumber rightNumber = .ok (some constant) := by
  obtain ⟨leftValue, hleft, h⟩ := Codec.bind_eq_ok.mp h
  obtain ⟨rightValue, hright, h⟩ := Codec.bind_eq_ok.mp h
  cases leftValue with
  | none => cases h
  | some leftNumber =>
      cases rightValue with
      | none => cases h
      | some rightNumber => exact ⟨leftNumber, rightNumber, hleft, hright, h⟩

theorem evaluateConstantInteger_conditional
    (h : evaluateConstantInteger (.conditionalExpression span condition first second valueType)
      = .ok (some constant)) :
    ∃ test, evaluateConstantInteger condition = .ok (some test) ∧
      evaluateConstantInteger (if test ≠ 0 then first else second) = .ok (some constant) := by
  obtain ⟨tested, htested, h⟩ := Codec.bind_eq_ok.mp h
  cases tested with
  | none => cases h
  | some test =>
      refine ⟨test, htested, ?_⟩
      simp only at h
      split at h <;> split <;> first | exact h | contradiction

theorem evaluateConstantInteger_coalesce
    (h : evaluateConstantInteger (.coalesceExpression span left fallback valueType) = .ok (some constant)) :
    ∃ number, evaluateConstantInteger left = .ok (some number) ∧
      (if number = 0 then evaluateConstantInteger fallback else .ok (some number)) = .ok (some constant) := by
  obtain ⟨leftValue, hleft, h⟩ := Codec.bind_eq_ok.mp h
  cases leftValue with
  | none => cases h
  | some number => exact ⟨number, hleft, h⟩

variable {lowered : CoreExpression} {part : Expression ResolvedName} {number : Int}

theorem settled_unary {operator : UnaryOperator}
    (hfits : EveryValueFits (.unaryExpression span operator value valueType))
    (hrule : unaryNumericRule operator (expressionAnnotationOf value) = success valueType)
    (hcore : core = if operator = .unaryPlus then lowered
      else .corePrimitive (lowerUnary operator) [lowered] valueType)
    (ih : Settled platform functions invoke value lowered locals world) :
    Settled platform functions invoke (.unaryExpression span operator value valueType) core locals world := by
  obtain ⟨-, hvalues⟩ := hfits _ .self
  obtain ⟨hoperandScalar, hoperandValues⟩ := hfits value (.operand .self)
  rcases ih with ⟨number, hnumber, hrun, hconstant⟩ | ⟨hstops, hshift⟩
  · obtain ⟨result, happlied, hplus, hother, hcompile⟩ :=
      unary_agrees platform world hoperandScalar hrule (hoperandValues number hnumber)
    refine .inl ⟨result, .unary hnumber happlied, ?_, fun constant hc => ?_⟩
    · by_cases hoperator : operator = .unaryPlus
      · obtain ⟨htype, rfl⟩ := hplus hoperator
        rw [hcore, if_pos hoperator, hrun]
        show _ = Outcome.done (valueOf valueType result) world
        rw [htype]
      · rw [hcore, if_neg hoperator, evaluate_unary, hrun, Outcome.bind_done]
        exact hother hoperator (hvalues result (.unary hnumber happlied))
    · obtain ⟨number', hnumber', hc⟩ := evaluateConstantInteger_unary hc
      rw [hconstant number' hnumber'] at hc
      exact hcompile constant hc
  · refine .inr ⟨?_, fun ⟨constant, hc⟩ hrange => ?_⟩
    · by_cases hoperator : operator = .unaryPlus
      · rwa [hcore, if_pos hoperator]
      · rw [hcore, if_neg hoperator, evaluate_unary]
        exact bind_stopped_of hstops
    · obtain ⟨number, hnumber, -⟩ := evaluateConstantInteger_unary hc
      exact hshift ⟨number, hnumber⟩ fun _ _ _ _ _ _ _ inside => hrange _ _ _ _ _ _ _ (.operand inside)

section Operands

variable
    (hfits : EveryValueFits (.binaryExpression span operator left right valueType))
    (hrule : binaryNumericRule operator (expressionAnnotationOf left) (expressionAnnotationOf right)
      = success valueType) (ihLeft : Settled platform functions invoke left loweredLeft locals world)
    (ihRight : EveryValueFits right → Settled platform functions invoke right loweredRight locals world)

include hfits hrule ihLeft ihRight

/-- Operators that evaluate both operands. -/
theorem settled_eager (heager : isShortCircuit operator = false) :
    Settled platform functions invoke (.binaryExpression span operator left right valueType)
      (.corePrimitive (lowerBinary operator) [loweredLeft, loweredRight] valueType) locals world := by
  have hundecided (number : Int) : ¬Decides operator number := by
    rintro (⟨rfl, -⟩ | ⟨rfl, -⟩) <;> cases heager
  obtain ⟨-, hvalues⟩ := hfits _ .self
  obtain ⟨hleftScalar, hleftValues⟩ := hfits left (.left .self)
  rcases ihLeft with ⟨leftNumber, hleft, hleftRun, hleftConstant⟩ | ⟨hstops, hshift⟩
  · have hinside {part : Expression ResolvedName} (inside : Evaluated right part) :
        Evaluated (.binaryExpression span operator left right valueType) part :=
      .right hleft (hundecided leftNumber) inside
    rcases ihRight fun part inside => hfits part (hinside inside) with
      ⟨rightNumber, hright, hrightRun, hrightConstant⟩ | ⟨hstops, hshift⟩
    · have hleftFits := hleftValues leftNumber hleft
      have hrightFits := (hfits right (hinside .self)).2 rightNumber hright
      obtain ⟨hrun, hvalue⟩ := finishPrimitive_binary platform world heager hleftScalar hrule hleftFits hrightFits
        fun result happlied => hvalues result (.binary heager hleft hright happlied)
      have hwhole : evaluate platform functions invoke
          (.corePrimitive (lowerBinary operator) [loweredLeft, loweredRight] valueType) locals world
          = finished platform world valueType (targetResult valueType operator leftNumber rightNumber) := by
        rw [evaluate_eager _ _ _ _ _ heager, hleftRun, Outcome.bind_done, hrightRun, Outcome.bind_done, hrun]
      have hcompile (constant : Int) (hc : evaluateConstantInteger
          (.binaryExpression span operator left right valueType) = .ok (some constant)) :
          targetResult valueType operator leftNumber rightNumber = .ok constant ∨
            (IsShift operator ∧ ¬CountInRange valueType rightNumber) := by
        obtain ⟨leftNumber', rightNumber', hleft', hright', hc⟩ := evaluateConstantInteger_binary hc
        rw [hleftConstant leftNumber' hleft', hrightConstant rightNumber' hright'] at hc
        exact evaluateBinaryIntegers_eq_ok valueType hleftFits.withinBound hrightFits.withinBound hc
      cases htarget : targetResult valueType operator leftNumber rightNumber with
      | ok result =>
          rw [htarget] at hwhole hcompile
          refine .inl ⟨result, .binary heager hleft hright (hvalue result htarget), hwhole, fun constant hc => ?_⟩
          rcases hcompile constant hc with hresult | ⟨hshift, hrange⟩
          · exact (Except.ok.inj hresult).symm
          · rw [targetResult_shift hshift hrange] at htarget
            cases htarget
      | error trap =>
          rw [htarget] at hwhole hcompile
          refine .inr ⟨⟨trap, hwhole⟩, fun ⟨constant, hc⟩ hrange => ?_⟩
          rcases hcompile constant hc with hresult | ⟨hshift, hrefused⟩
          · cases hresult
          · exact hrefused (hrange _ _ _ _ _ _ _ .self hshift hleft hright)
    · refine .inr ⟨?_, fun ⟨constant, hc⟩ hrange => ?_⟩
      · rw [evaluate_eager _ _ _ _ _ heager, hleftRun, Outcome.bind_done]
        exact bind_stopped_of hstops
      · obtain ⟨-, rightNumber, -, hright, -⟩ := evaluateConstantInteger_binary hc
        exact hshift ⟨rightNumber, hright⟩ fun _ _ _ _ _ _ _ inside => hrange _ _ _ _ _ _ _ (hinside inside)
  · refine .inr ⟨?_, fun ⟨constant, hc⟩ hrange => ?_⟩
    · exact evaluate_left_stopped hstops
    · obtain ⟨leftNumber, -, hleft, -⟩ := evaluateConstantInteger_binary hc
      exact hshift ⟨leftNumber, hleft⟩ fun _ _ _ _ _ _ _ inside => hrange _ _ _ _ _ _ _ (.left inside)

/-- `&&` and `||`: the right operand runs only where the left one does not decide, and the compile-time value
of a skipped operand changes nothing. -/
theorem settled_logical (hlogical : isShortCircuit operator = true) :
    Settled platform functions invoke (.binaryExpression span operator left right valueType)
      (.corePrimitive (lowerBinary operator) [loweredLeft, loweredRight] valueType) locals world := by
  have hbool : valueType = boolType := by
    have hoperator : [BinaryOperator.logicalAnd, .logicalOr].contains operator = true := by
      cases operator <;> first | rfl | cases hlogical
    unfold binaryNumericRule at hrule
    rw [if_pos hoperator] at hrule
    split at hrule <;> cases hrule
    rfl
  subst hbool
  -- the compile-time result is the truth of both operands
  have hcompile {constant : Int} (hc : evaluateConstantInteger
      (.binaryExpression span operator left right boolType) = .ok (some constant)) :
      ∃ leftNumber rightNumber, evaluateConstantInteger left = .ok (some leftNumber) ∧
        evaluateConstantInteger right = .ok (some rightNumber) ∧
        constant = truthInteger (if operator = .logicalAnd then leftNumber ≠ 0 && rightNumber ≠ 0
          else leftNumber ≠ 0 || rightNumber ≠ 0) := by
    obtain ⟨leftNumber, rightNumber, hleft, hright, hc⟩ := evaluateConstantInteger_binary hc
    refine ⟨leftNumber, rightNumber, hleft, hright, ?_⟩
    have hoperator : operator = .logicalAnd ∨ operator = .logicalOr := by simpa [isShortCircuit] using hlogical
    rcases hoperator with rfl | rfl <;> exact checkedValue_eq_ok hc
  rcases ihLeft with ⟨leftNumber, hleft, hleftRun, hleftConstant⟩ | ⟨hstops, hshift⟩
  · by_cases hdecides : Decides operator leftNumber
    · refine .inl ⟨_, .decided hdecides hleft, ?_, fun constant hc => ?_⟩
      · rw [evaluate_decided hdecides hleftRun]
        show _ = Outcome.done (valueOf boolType (truthInteger (leftNumber ≠ 0))) world
        rw [valueOf_truth]
      · obtain ⟨leftNumber', rightNumber, hleft', -, rfl⟩ := hcompile hc
        rw [hleftConstant leftNumber' hleft']
        rcases hdecides with ⟨rfl, hzero⟩ | ⟨rfl, hzero⟩ <;> simp [hzero]
    · have hinside {part : Expression ResolvedName} (inside : Evaluated right part) :
          Evaluated (.binaryExpression span operator left right boolType) part := .right hleft hdecides inside
      rcases ihRight fun part inside => hfits part (hinside inside) with
        ⟨rightNumber, hright, hrightRun, hrightConstant⟩ | ⟨hstops, hshift⟩
      · refine .inl ⟨_, .undecided hlogical hdecides hleft hright, ?_, fun constant hc => ?_⟩
        · rw [evaluate_undecided hlogical hdecides hleftRun, hrightRun]
          simp only [Outcome.bind_done, branchOn, truth_valueOf]
          show _ = Outcome.done (valueOf boolType (truthInteger (rightNumber ≠ 0))) world
          rw [valueOf_truth]
        · obtain ⟨leftNumber', rightNumber', hleft', hright', rfl⟩ := hcompile hc
          rw [hleftConstant leftNumber' hleft', hrightConstant rightNumber' hright']
          by_cases hand : operator = .logicalAnd
          · have hne : leftNumber ≠ 0 := fun hzero => hdecides (.inl ⟨hand, hzero⟩)
            simp [hand, hne]
          · have hor : operator = .logicalOr := by
              cases operator <;> first | rfl | exact absurd rfl hand | cases hlogical
            have hzero : leftNumber = 0 := of_not_not fun hne => hdecides (.inr ⟨hor, hne⟩)
            simp [hand, hzero]
      · refine .inr ⟨?_, fun ⟨constant, hc⟩ hrange => ?_⟩
        · rw [evaluate_undecided hlogical hdecides hleftRun]
          exact bind_stopped_of hstops
        · obtain ⟨-, rightNumber, -, hright, -⟩ := hcompile hc
          exact hshift ⟨rightNumber, hright⟩ fun _ _ _ _ _ _ _ inside => hrange _ _ _ _ _ _ _ (hinside inside)
  · refine .inr ⟨?_, fun ⟨constant, hc⟩ hrange => ?_⟩
    · exact evaluate_left_stopped hstops
    · obtain ⟨leftNumber, -, hleft, -⟩ := hcompile hc
      exact hshift ⟨leftNumber, hleft⟩ fun _ _ _ _ _ _ _ inside => hrange _ _ _ _ _ _ _ (.left inside)

end Operands

/-- A part that decides the whole: the whole has its value, its run and its compile-time value. -/
theorem Settled.whole
    {locals' : Locals platform.Floating} (h : Settled platform functions invoke part lowered locals' world)
    (htype : expressionAnnotationOf part = expressionAnnotationOf expression)
    (hexact : ∀ number, ExactValue part number → ExactValue expression number)
    (hrun : evaluate platform functions invoke core locals world
      = evaluate platform functions invoke lowered locals' world)
    (hconstant : ∀ constant, evaluateConstantInteger expression = .ok (some constant) →
      evaluateConstantInteger part = .ok (some constant))
    (hinside : ∀ inner, Evaluated part inner → Evaluated expression inner) :
    Settled platform functions invoke expression core locals world := by
  rcases h with ⟨number, hnumber, hdone, hpart⟩ | ⟨hstops, hshift⟩
  · refine .inl ⟨number, hexact number hnumber, ?_, fun constant hc => hpart constant (hconstant constant hc)⟩
    rw [hrun, hdone, htype]
  · refine .inr ⟨?_, fun ⟨constant, hc⟩ hrange => ?_⟩
    · rw [hrun]
      exact hstops
    · exact hshift ⟨constant, hconstant constant hc⟩
        fun _ _ _ _ _ _ _ inside => hrange _ _ _ _ _ _ _ (hinside _ inside)

theorem settled_conditional
    (hfits : EveryValueFits (.conditionalExpression span condition first second valueType))
    (firstType : expressionAnnotationOf first = valueType) (secondType : expressionAnnotationOf second = valueType)
    (ihCondition : Settled platform functions invoke condition loweredCondition locals world)
    (ihFirst : EveryValueFits first → Settled platform functions invoke first loweredFirst locals world)
    (ihSecond : EveryValueFits second → Settled platform functions invoke second loweredSecond locals world) :
    Settled platform functions invoke (.conditionalExpression span condition first second valueType)
      (.coreConditional loweredCondition loweredFirst loweredSecond valueType) locals world := by
  rcases ihCondition with ⟨test, htest, htestRun, htestConstant⟩ | ⟨hstops, hshift⟩
  · have hcompile (constant : Int) (hc : evaluateConstantInteger
        (.conditionalExpression span condition first second valueType) = .ok (some constant)) :
        evaluateConstantInteger (if test ≠ 0 then first else second) = .ok (some constant) := by
      obtain ⟨test', htest', hc⟩ := evaluateConstantInteger_conditional hc
      rwa [htestConstant test' htest'] at hc
    by_cases hzero : test = 0
    · subst hzero
      refine (ihSecond fun part inside => hfits part (.second htest inside)).whole secondType
        (fun number hnumber => .second htest hnumber) ?_ (fun constant hc => ?_)
        fun inner inside => .second htest inside
      · rw [evaluate_conditional htestRun, if_neg (not_not_intro rfl)]
      · have hselected := hcompile constant hc
        rwa [if_neg (not_not_intro rfl)] at hselected
    · refine (ihFirst fun part inside => hfits part (.first htest hzero inside)).whole firstType
        (fun number hnumber => .first htest hzero hnumber) ?_ (fun constant hc => ?_)
        fun inner inside => .first htest hzero inside
      · rw [evaluate_conditional htestRun, if_pos hzero]
      · have hselected := hcompile constant hc
        rwa [if_pos hzero] at hselected
  · refine .inr ⟨?_, fun ⟨constant, hc⟩ hrange => ?_⟩
    · simp only [evaluate]
      exact bind_stopped_of hstops
    · obtain ⟨test, htest, -⟩ := evaluateConstantInteger_conditional hc
      exact hshift ⟨test, htest⟩ fun _ _ _ _ _ _ _ inside => hrange _ _ _ _ _ _ _ (.condition inside)

theorem settled_coalesce {subject : ResolvedName}
    (hfits : EveryValueFits (.coalesceExpression span left fallback valueType))
    (leftType : expressionAnnotationOf left = valueType) (fallbackType : expressionAnnotationOf fallback = valueType)
    (ihLeft : Settled platform functions invoke left loweredLeft locals world)
    (ihFallback : ∀ locals, EveryValueFits fallback →
      Settled platform functions invoke fallback loweredFallback locals world) :
    Settled platform functions invoke (.coalesceExpression span left fallback valueType)
      (.coreLet subject valueType loweredLeft
        (.coreConditional (.coreVariable subject valueType) (.coreVariable subject valueType) loweredFallback
          valueType) valueType) locals world := by
  rcases ihLeft with ⟨number, hnumber, hrun, hnumberConstant⟩ | ⟨hstops, hshift⟩
  · have hcompile (constant : Int) (hc : evaluateConstantInteger (.coalesceExpression span left fallback valueType)
        = .ok (some constant)) :
        (if number = 0 then evaluateConstantInteger fallback else .ok (some number)) = .ok (some constant) := by
      obtain ⟨number', hnumber', hc⟩ := evaluateConstantInteger_coalesce hc
      rwa [hnumberConstant number' hnumber'] at hc
    by_cases hzero : number = 0
    · subst hzero
      refine (ihFallback (locals.set subject.resolvedSymbol (valueOf (expressionAnnotationOf left) 0))
        fun part inside => hfits part (.fallback hnumber inside)).whole fallbackType
        (fun result hresult => .absent hnumber hresult) ?_ (fun constant hc => ?_)
        fun inner inside => .fallback hnumber inside
      · rw [evaluate_coalesce hrun, if_neg (not_not_intro rfl)]
      · have hselected := hcompile constant hc
        rwa [if_pos rfl] at hselected
    · refine .inl ⟨number, .present hnumber hzero, ?_, fun constant hc => ?_⟩
      · rw [evaluate_coalesce hrun, if_pos hzero, leftType]
        rfl
      · have hselected := hcompile constant hc
        rw [if_neg hzero] at hselected
        exact (Option.some.inj (Except.ok.inj hselected)).symm
  · refine .inr ⟨?_, fun ⟨constant, hc⟩ hrange => ?_⟩
    · simp only [evaluate]
      exact bind_stopped_of hstops
    · obtain ⟨number, hnumber, -⟩ := evaluateConstantInteger_coalesce hc
      exact hshift ⟨number, hnumber⟩ fun _ _ _ _ _ _ _ inside => hrange _ _ _ _ _ _ _ (.subject inside)

/-- **A typed expression whose values fit is settled**, in every world and with all locals. -/
theorem settled (htyped : WellTyped expression) {next next' : Int}
    (hlowered : lowerOperands expression next = some (core, next')) (hfits : EveryValueFits expression) :
    Settled platform functions invoke expression core locals world := by
  induction htyped generalizing next next' core locals with
  | literal typed =>
      have hscalar := (hfits _ .self).1
      simp only [lowerOperands, Option.some.injEq, Prod.mk.injEq] at hlowered
      obtain ⟨rfl, -⟩ := hlowered
      have htype := hscalar.lowerBoundaryType
      simp only [expressionAnnotationOf] at htype hscalar
      rw [htype]
      exact settled_literal typed hscalar
  | unary operand rule ih =>
      have htype := (hfits _ .self).1.lowerBoundaryType
      obtain ⟨lowered, hvalue, hcore⟩ := lowerOperands_unary hlowered
      simp only [expressionAnnotationOf] at htype
      rw [htype] at hcore
      exact settled_unary hfits rule hcore (ih hvalue fun part inside => hfits part (.operand inside))
  | @binary span operator left right valueType typedLeft typedRight rule ihLeft ihRight =>
      have htype := (hfits _ .self).1.lowerBoundaryType
      obtain ⟨loweredLeft, loweredRight, between, hleft, hright, rfl⟩ := lowerOperands_binary hlowered
      simp only [expressionAnnotationOf] at htype
      rw [htype]
      have hleftSettled : Settled platform functions invoke left loweredLeft locals world :=
        ihLeft hleft fun part inside => hfits part (.left inside)
      cases hoperator : isShortCircuit operator with
      | false => exact settled_eager hfits rule hleftSettled (ihRight hright) hoperator
      | true => exact settled_logical hfits rule hleftSettled (ihRight hright) hoperator
  | conditional typedCondition typedFirst typedSecond test firstType secondType ihCondition ihFirst ihSecond =>
      have htype := (hfits _ .self).1.lowerBoundaryType
      obtain ⟨loweredCondition, loweredFirst, loweredSecond, between, after, hcondition, hfirst, hsecond, rfl⟩ :=
        lowerOperands_conditional hlowered
      simp only [expressionAnnotationOf] at htype
      rw [htype]
      exact settled_conditional hfits firstType secondType
        (ihCondition hcondition fun part inside => hfits part (.condition inside)) (ihFirst hfirst) (ihSecond hsecond)
  | coalesce typedLeft typedFallback leftType fallbackType ihLeft ihFallback =>
      have htype := (hfits _ .self).1.lowerBoundaryType
      obtain ⟨loweredLeft, loweredFallback, between, after, hleft, hfallback, rfl⟩ :=
        lowerOperands_coalesce hlowered
      simp only [expressionAnnotationOf] at htype
      rw [htype]
      exact settled_coalesce hfits leftType fallbackType
        (ihLeft hleft fun part inside => hfits part (.subject inside)) fun locals => ihFallback hfallback

/-! ## Errors about a divisor -/

variable {issue : ConstantIntegerError}

/-- A computation of two steps fails in the first or in the second. -/
theorem bind_eq_error {α β : Type} {outcome : Except ConstantIntegerError α}
    {rest : α → Except ConstantIntegerError β} (h : (outcome >>= rest) = .error issue) :
    outcome = .error issue ∨ ∃ value, outcome = .ok value ∧ rest value = .error issue := by
  cases outcome with
  | error other => exact .inl (congrArg Except.error (Except.error.inj h))
  | ok value => exact .inr ⟨value, rfl, h⟩

theorem not_division_limit (h : IsDivisionError issue) : issue ≠ .constantEvaluationLimitExceeded := by
  rintro rfl
  rcases h with h | h | h <;> cases h

theorem not_division_checked (hissue : IsDivisionError issue) : checkedValue number ≠ .error issue :=
  fun h => not_division_limit hissue (checkedValue_eq_error h)

/-- The operands of an eager operator have values, and the operator fails about its divisor. -/
theorem evaluateBinary_stops {leftNumber rightNumber : Int}
    (hfits : EveryValueFits (.binaryExpression span operator left right valueType))
    (hrule : binaryNumericRule operator (expressionAnnotationOf left) (expressionAnnotationOf right)
      = success valueType) (heager : isShortCircuit operator = false) (hissue : IsDivisionError issue)
    (hleft : ExactValue left leftNumber) (hright : ExactValue right rightNumber)
    (h : evaluateBinaryIntegers operator leftNumber rightNumber = .error issue) :
    ∃ trap, finishPrimitive platform (lowerBinary operator) valueType
      [valueOf (expressionAnnotationOf left) leftNumber, valueOf (expressionAnnotationOf right) rightNumber] world
        = .stopped trap world := by
  have hundecided : ¬Decides operator leftNumber := by
    rintro (⟨rfl, -⟩ | ⟨rfl, -⟩) <;> cases heager
  obtain ⟨-, hvalues⟩ := hfits _ .self
  obtain ⟨hleftScalar, hleftValues⟩ := hfits left (.left .self)
  obtain ⟨-, hrightValues⟩ := hfits right (.right hleft hundecided .self)
  obtain ⟨hrun, -⟩ := finishPrimitive_binary platform world heager hleftScalar hrule (hleftValues _ hleft)
    (hrightValues _ hright) fun result happlied => hvalues result (.binary heager hleft hright happlied)
  rw [evaluateBinaryIntegers_eq_error valueType hissue h] at hrun
  exact ⟨.divisionByZero, hrun⟩

/-- **A division error stops the run.** -/
theorem divisor_stops (htyped : WellTyped expression) {next next' : Int}
    (hlowered : lowerOperands expression next = some (core, next')) (hfits : EveryValueFits expression)
    (hskips : SkipsNoError expression) (hissue : IsDivisionError issue)
    (herror : evaluateConstantInteger expression = .error issue) :
    ∃ trap, evaluate platform functions invoke core locals world = .stopped trap world := by
  induction htyped generalizing next next' core locals with
  | @literal span literal valueType typed =>
      cases literal with
      | integerLiteral | characterLiteral | booleanLiteral => exact absurd herror (not_division_checked hissue)
      | floatingLiteral | stringLiteral | unitLiteral => cases herror
  | unary operand rule ih =>
      obtain ⟨lowered, hvalue, rfl⟩ := lowerOperands_unary hlowered
      rcases bind_eq_error herror with hoperand | ⟨operand, -, herror⟩
      · have hstops : ∃ trap, evaluate platform functions invoke lowered locals world = .stopped trap world :=
          ih hvalue (fun part inside => hfits part (.operand inside))
            (fun _ _ _ _ _ _ _ inside => hskips _ _ _ _ _ _ _ (.operand inside)) hoperand
        split
        · exact hstops
        · rw [evaluate_unary]
          exact bind_stopped_of hstops
      · cases operand with
        | none => cases herror
        | some number => exact absurd (evaluateUnaryInteger_eq_error herror) (not_division_limit hissue)
  | @binary span operator left right valueType typedLeft typedRight rule ihLeft ihRight =>
      obtain ⟨loweredLeft, loweredRight, between, hleft, hright, rfl⟩ := lowerOperands_binary hlowered
      have htype := (hfits _ .self).1.lowerBoundaryType
      simp only [expressionAnnotationOf] at htype
      rw [htype]
      have hleftFits : EveryValueFits left := fun part inside => hfits part (.left inside)
      rcases bind_eq_error herror with hleftError | ⟨leftValue, hleftValue, herror⟩
      · exact evaluate_left_stopped (ihLeft hleft hleftFits
          (fun _ _ _ _ _ _ _ inside => hskips _ _ _ _ _ _ _ (.left inside)) hleftError)
      have hsettled : Settled platform functions invoke left loweredLeft locals world :=
        settled typedLeft hleft hleftFits
      rcases hsettled with
        ⟨leftNumber, hleftNumber, hleftRun, hleftConstant⟩ | ⟨hstops, -⟩
      swap
      · exact evaluate_left_stopped hstops
      by_cases hdecides : Decides operator leftNumber
      · -- a skipped operand is no error, and neither is the operator
        rcases bind_eq_error herror with hrightError | ⟨rightValue, -, herror⟩
        · exact absurd hrightError (hskips _ _ _ _ _ _ _ .self hleftNumber hdecides)
        · cases leftValue with
          | none => cases herror
          | some leftNumber' =>
              cases rightValue with
              | none => cases herror
              | some rightNumber =>
                  rcases hdecides with ⟨rfl, -⟩ | ⟨rfl, -⟩ <;>
                    exact absurd herror (not_division_checked hissue)
      have hrightFits : EveryValueFits right := fun part inside => hfits part (.right hleftNumber hdecides inside)
      have hrightStops (hrightRun : ∃ trap, evaluate platform functions invoke loweredRight locals world
          = .stopped trap world) : ∃ trap, evaluate platform functions invoke
            (.corePrimitive (lowerBinary operator) [loweredLeft, loweredRight] valueType) locals world
            = .stopped trap world := by
        cases hoperator : isShortCircuit operator with
        | false =>
            rw [evaluate_eager _ _ _ _ _ hoperator, hleftRun, Outcome.bind_done]
            exact bind_stopped_of hrightRun
        | true =>
            rw [evaluate_undecided hoperator hdecides hleftRun]
            exact bind_stopped_of hrightRun
      rcases bind_eq_error herror with hrightError | ⟨rightValue, hrightValue, herror⟩
      · exact hrightStops (ihRight hright hrightFits
          (fun _ _ _ _ _ _ _ inside => hskips _ _ _ _ _ _ _ (.right hleftNumber hdecides inside)) hrightError)
      have hsettled : Settled platform functions invoke right loweredRight locals world :=
        settled typedRight hright hrightFits
      rcases hsettled with
        ⟨rightNumber, hrightNumber, hrightRun, hrightConstant⟩ | ⟨hstops, -⟩
      swap
      · exact hrightStops hstops
      cases leftValue with
      | none => cases herror
      | some leftNumber' =>
          cases rightValue with
          | none => cases herror
          | some rightNumber' =>
              rw [hleftConstant _ hleftValue, hrightConstant _ hrightValue] at herror
              cases hoperator : isShortCircuit operator with
              | false =>
                  rw [evaluate_eager _ _ _ _ _ hoperator, hleftRun, Outcome.bind_done, hrightRun, Outcome.bind_done]
                  exact evaluateBinary_stops hfits rule hoperator hissue hleftNumber hrightNumber herror
              | true =>
                  have hlogical : operator = .logicalAnd ∨ operator = .logicalOr := by
                    simpa [isShortCircuit] using hoperator
                  rcases hlogical with rfl | rfl <;> exact absurd herror (not_division_checked hissue)
  | @conditional span condition first second valueType typedCondition typedFirst typedSecond test firstType secondType
      ihCondition ihFirst ihSecond =>
      obtain ⟨loweredCondition, loweredFirst, loweredSecond, between, after, hcondition, hfirst, hsecond, rfl⟩ :=
        lowerOperands_conditional hlowered
      have hconditionFits : EveryValueFits condition := fun part inside => hfits part (.condition inside)
      have hconditionStops (hrun : ∃ trap, evaluate platform functions invoke loweredCondition locals world
          = .stopped trap world) : ∃ trap, evaluate platform functions invoke
            (.coreConditional loweredCondition loweredFirst loweredSecond (lowerBoundaryType valueType)) locals world
            = .stopped trap world := by
        simp only [evaluate]
        exact bind_stopped_of hrun
      rcases bind_eq_error herror with hconditionError | ⟨tested, htested, herror⟩
      · exact hconditionStops (ihCondition hcondition hconditionFits
          (fun _ _ _ _ _ _ _ inside => hskips _ _ _ _ _ _ _ (.condition inside)) hconditionError)
      have hsettled : Settled platform functions invoke condition loweredCondition locals world :=
        settled typedCondition hcondition hconditionFits
      rcases hsettled with
        ⟨number, hnumber, hrun, hconstant⟩ | ⟨hstops, -⟩
      swap
      · exact hconditionStops hstops
      cases tested with
      | none => cases herror
      | some number' =>
          have hsame := hconstant number' htested
          subst hsame
          rw [evaluate_conditional hrun]
          simp only at herror
          by_cases hzero : number' = 0
          · subst hzero
            rw [if_neg (not_not_intro rfl)] at herror ⊢
            exact ihSecond hsecond (fun part inside => hfits part (.second hnumber inside))
              (fun _ _ _ _ _ _ _ inside => hskips _ _ _ _ _ _ _ (.second hnumber inside)) herror
          · rw [if_pos hzero] at herror ⊢
            exact ihFirst hfirst (fun part inside => hfits part (.first hnumber hzero inside))
              (fun _ _ _ _ _ _ _ inside => hskips _ _ _ _ _ _ _ (.first hnumber hzero inside)) herror
  | @coalesce span left fallback valueType typedLeft typedFallback leftType fallbackType ihLeft ihFallback =>
      obtain ⟨loweredLeft, loweredFallback, between, after, hleft, hfallback, rfl⟩ :=
        lowerOperands_coalesce hlowered
      have hleftFits : EveryValueFits left := fun part inside => hfits part (.subject inside)
      have hleftStops {rest : CoreExpression} (hrun : ∃ trap, evaluate platform functions invoke loweredLeft locals
          world = .stopped trap world) : ∃ trap, evaluate platform functions invoke
            (.coreLet (freshCoalesceSubject after) (lowerBoundaryType valueType) loweredLeft rest
              (lowerBoundaryType valueType)) locals world = .stopped trap world := by
        simp only [evaluate]
        exact bind_stopped_of hrun
      rcases bind_eq_error herror with hleftError | ⟨leftValue, hleftValue, herror⟩
      · exact hleftStops (ihLeft hleft hleftFits
          (fun _ _ _ _ _ _ _ inside => hskips _ _ _ _ _ _ _ (.subject inside)) hleftError)
      have hsettled : Settled platform functions invoke left loweredLeft locals world :=
        settled typedLeft hleft hleftFits
      rcases hsettled with
        ⟨number, hnumber, hrun, hconstant⟩ | ⟨hstops, -⟩
      swap
      · exact hleftStops hstops
      cases leftValue with
      | none => cases herror
      | some number' =>
          have hsame := hconstant number' hleftValue
          subst hsame
          simp only at herror
          split at herror
          · next hzero =>
              subst hzero
              rw [evaluate_coalesce hrun, if_neg (not_not_intro rfl)]
              exact ihFallback hfallback (fun part inside => hfits part (.fallback hnumber inside))
                (fun _ _ _ _ _ _ _ inside => hskips _ _ _ _ _ _ _ (.fallback hnumber inside)) herror
          · cases herror

end Agreement

/-- **Compile-time evaluation agrees with a run.** Of a typed expression whose evaluated parts fit their
types, the compile-time value is what a run yields where no shift is refused; and a division error is one of
an expression that stops, where no operand that a run skips is an error. -/
theorem evaluateConstantInteger_agrees {expression : Expression ResolvedName} {core : CoreExpression}
    {next next' : Int} (typed : WellTyped expression) (lowered : lowerOperands expression next = some (core, next'))
    (fits : EveryValueFits expression) (platform : Platform) (functions : List CoreFunction)
    (invoke : Invoke platform) (locals : Locals platform.Floating) (world : World platform.Floating) :
    (ShiftsInRange expression → ∀ value, evaluateConstantInteger expression = .ok (some value) →
      evaluate platform functions invoke core locals world
        = .done (valueOf (expressionAnnotationOf expression) value) world) ∧
    (SkipsNoError expression → ∀ issue, IsDivisionError issue → evaluateConstantInteger expression = .error issue →
      ∃ trap, evaluate platform functions invoke core locals world = .stopped trap world) := by
  refine ⟨fun hrange value hvalue => ?_, fun hskips issue hissue herror => ?_⟩
  · rcases settled typed lowered fits with ⟨number, -, hrun, hconstant⟩ | ⟨-, hshift⟩
    · rw [hconstant value hvalue]
      exact hrun
    · exact absurd hrange (hshift ⟨value, hvalue⟩)
  · exact divisor_stops typed lowered fits hskips hissue herror

section Samples

def integerOf (value : Int) : Expression ResolvedName := .literalExpression emptySpan (.integerLiteral value) intType

def operation (operator : BinaryOperator) (left right : Expression ResolvedName) : Expression ResolvedName :=
  .binaryExpression emptySpan operator left right intType

/-- `flag ? 3 + 4 : 1 / 0` -/
def sumOrQuotient (flag : Bool) : Expression ResolvedName :=
  .conditionalExpression emptySpan (.literalExpression emptySpan (.booleanLiteral flag) boolType)
    (operation .add (integerOf 3) (integerOf 4)) (operation .divide (integerOf 1) (integerOf 0)) intType

theorem isScalar_intType : IsScalar intType := .inr (by decide)

theorem exactValue_integerOf {number value : Int} (h : ExactValue (integerOf number) value) : value = number := by
  cases h
  rfl

theorem integerOf_fits {number : Int} (h : FitsType intType number) : EveryValueFits (integerOf number) := by
  intro part inside
  cases inside
  exact ⟨isScalar_intType, fun value hvalue => exactValue_integerOf hvalue ▸ h⟩

variable {operator : BinaryOperator}

/-- An operation fits where its operands and its result do. -/
theorem operation_fits {left right : Expression ResolvedName}
    (heager : isShortCircuit operator = false) (hleft : EveryValueFits left) (hright : EveryValueFits right)
    (hresult : ∀ leftNumber rightNumber result, ExactValue left leftNumber → ExactValue right rightNumber →
      BinaryValue intType operator leftNumber rightNumber result → FitsType intType result) :
    EveryValueFits (operation operator left right) := by
  intro part inside
  cases inside with
  | self =>
      refine ⟨isScalar_intType, fun value hvalue => ?_⟩
      cases hvalue with
      | binary eager leftValue rightValue applied => exact hresult _ _ value leftValue rightValue applied
      | decided decides leftValue => rcases decides with ⟨rfl, -⟩ | ⟨rfl, -⟩ <;> cases heager
      | undecided logical decides leftValue rightValue =>
          rw [heager] at logical
          cases logical
  | left inside => exact hleft part inside
  | right leftValue decides inside => exact hright part inside

theorem sumOrQuotient_typed (flag : Bool) : WellTyped (sumOrQuotient flag) :=
  .conditional (.literal rfl)
    (.binary (.literal (.inl (by decide))) (.literal (.inl (by decide))) rfl)
    (.binary (.literal (.inl (by decide))) (.literal (.inl (by decide))) rfl)
    (by show acceptsBooleanContext boolType = true; decide) rfl rfl

theorem sumOrQuotient_parts {flag : Bool} {part : Expression ResolvedName} (h : Evaluated (sumOrQuotient flag) part) :
    part = sumOrQuotient flag ∨ part = .literalExpression emptySpan (.booleanLiteral flag) boolType ∨
      Evaluated (operation .add (integerOf 3) (integerOf 4)) part ∨
      Evaluated (operation .divide (integerOf 1) (integerOf 0)) part := by
  cases h with
  | self => exact .inl rfl
  | condition inside =>
      cases inside
      exact .inr (.inl rfl)
  | first tested selected inside => exact .inr (.inr (.inl inside))
  | second tested inside => exact .inr (.inr (.inr inside))

theorem sumOrQuotient_fits (flag : Bool) : EveryValueFits (sumOrQuotient flag) := by
  have hliteral (number : Int) (h : integerFitsCoreType intType number = true) : EveryValueFits (integerOf number) :=
    integerOf_fits (.inr h)
  have hsum : EveryValueFits (operation .add (integerOf 3) (integerOf 4)) := by
    refine operation_fits rfl (hliteral 3 (by decide)) (hliteral 4 (by decide)) ?_
    rintro leftNumber rightNumber result hleft hright ⟨layout, -, hdenotes⟩
    have hseven : result = leftNumber + rightNumber := hdenotes
    rw [hseven, exactValue_integerOf hleft, exactValue_integerOf hright]
    exact .inr (by decide)
  have hquotient : EveryValueFits (operation .divide (integerOf 1) (integerOf 0)) := by
    refine operation_fits rfl (hliteral 1 (by decide)) (hliteral 0 (by decide)) ?_
    rintro leftNumber rightNumber result - hright ⟨layout, -, remainder, hdivision⟩
    exact absurd (exactValue_integerOf hright) hdivision.divisor_ne
  intro part inside
  rcases sumOrQuotient_parts inside with rfl | rfl | inside | inside
  · refine ⟨isScalar_intType, fun value hvalue => ?_⟩
    cases hvalue with
    | first tested selected hfirst => exact (hsum _ .self).2 value hfirst
    | second tested hsecond => exact (hquotient _ .self).2 value hsecond
  · refine ⟨.inl rfl, fun value hvalue => ?_⟩
    cases hvalue
    exact fitsType_truth flag
  · exact hsum part inside
  · exact hquotient part inside

/-- No operator of the sample shifts or skips an operand. -/
theorem sumOrQuotient_operators {flag : Bool} {span : SourceSpan}
    {left right : Expression ResolvedName} {valueType : Ty}
    (h : Evaluated (sumOrQuotient flag) (.binaryExpression span operator left right valueType)) :
    operator = .add ∨ operator = .divide := by
  rcases sumOrQuotient_parts h with h | h | h | h
  · cases h
  · cases h
  · cases h with
    | self => exact .inl rfl
    | left inside => cases inside
    | right leftValue decides inside => cases inside
  · cases h with
    | self => exact .inr rfl
    | left inside => cases inside
    | right leftValue decides inside => cases inside

theorem sumOrQuotient_lowered (flag : Bool) : ∃ core, lowerOperands (sumOrQuotient flag) 0 = some (core, 0) :=
  ⟨_, rfl⟩

theorem checkedValue_small {value : Int} (h : value.natAbs < 2 ^ 16) : checkedValue value = .ok (some value) := by
  unfold checkedValue
  rw [checkCompileTimeInteger_within (withinBound_of_small h)]
  rfl

/-- The selected arm is a sum, or a quotient that stops the program. -/
theorem evaluateConstantInteger_agrees_sumOrQuotient :
    (∃ core, lowerOperands (sumOrQuotient true) 0 = some (core, 0) ∧
      ∀ (platform : Platform) (functions : List CoreFunction) (invoke : Invoke platform)
        (locals : Locals platform.Floating) (world : World platform.Floating),
        evaluate platform functions invoke core locals world = .done (.integer 7) world) ∧
    ∃ core, lowerOperands (sumOrQuotient false) 0 = some (core, 0) ∧
      ∀ (platform : Platform) (functions : List CoreFunction) (invoke : Invoke platform)
        (locals : Locals platform.Floating) (world : World platform.Floating),
        ∃ trap, evaluate platform functions invoke core locals world = .stopped trap world := by
  obtain ⟨sum, hsum⟩ := sumOrQuotient_lowered true
  obtain ⟨quotient, hquotient⟩ := sumOrQuotient_lowered false
  have hone : checkedValue 1 = .ok (some 1) := checkedValue_small (by decide)
  have hzero : checkedValue 0 = .ok (some 0) := checkedValue_small (by decide)
  refine ⟨⟨sum, hsum, fun platform functions invoke locals world => ?_⟩,
    ⟨quotient, hquotient, fun platform functions invoke locals world => ?_⟩⟩
  · refine (evaluateConstantInteger_agrees (sumOrQuotient_typed true) hsum (sumOrQuotient_fits true) platform
      functions invoke locals world).1 ?_ 7 ?_
    · intro span operator left right valueType leftNumber count inside hshift
      rcases sumOrQuotient_operators inside with rfl | rfl <;> rcases hshift with hshift | hshift <;> cases hshift
    · have hthree : checkedValue 3 = .ok (some 3) := checkedValue_small (by decide)
      have hfour : checkedValue 4 = .ok (some 4) := checkedValue_small (by decide)
      have hseven : checkedValue (3 + 4) = .ok (some 7) := checkedValue_small (by decide)
      simp only [sumOrQuotient, operation, integerOf, evaluateConstantInteger, if_true, hone, bind, Except.bind,
        hthree, hfour, evaluateBinary, evaluateBinaryIntegers, hseven, ne_eq, one_ne_zero, not_false_iff]
  · refine (evaluateConstantInteger_agrees (sumOrQuotient_typed false) hquotient (sumOrQuotient_fits false) platform
      functions invoke locals world).2 ?_ .constantDivisionByZero (.inl rfl) ?_
    · intro span operator left right valueType leftNumber issue inside hleft hdecides
      rcases sumOrQuotient_operators inside with rfl | rfl <;> rcases hdecides with ⟨hdecides, -⟩ | ⟨hdecides, -⟩ <;>
        cases hdecides
    · simp only [sumOrQuotient, operation, integerOf, evaluateConstantInteger, Bool.false_eq_true, if_false, hone,
        hzero, bind, Except.bind, evaluateBinary, evaluateBinaryIntegers, ne_eq, not_true_eq_false, if_true]

/-- `-1` -/
def minusOne : Expression ResolvedName := .unaryExpression emptySpan .unaryNegate (integerOf 1) intType

theorem minusOne_fits : EveryValueFits minusOne := by
  intro part inside
  cases inside with
  | self =>
      refine ⟨isScalar_intType, fun value hvalue => ?_⟩
      cases hvalue with
      | unary operand applied =>
          obtain ⟨layout, -, hdenotes⟩ := applied
          have hsum : value + _ = 0 := hdenotes
          rw [exactValue_integerOf operand] at hsum
          have hvalue : value = -1 := by omega
          subst hvalue
          exact .inr (by decide)
  | operand inside => exact integerOf_fits (.inr (by decide)) part inside

/-- A count of the width of the type, and a negative exponent: `0 << 64` of type `int` stops the program and has
a compile-time value, `1 ** -1` is an error at compile time and does not stop. -/
theorem shift_stops_and_exponent_runs :
    (∃ core, lowerOperands (operation .shiftLeft (integerOf 0) (integerOf 64)) 0 = some (core, 0) ∧
      WellTyped (operation .shiftLeft (integerOf 0) (integerOf 64)) ∧
      EveryValueFits (operation .shiftLeft (integerOf 0) (integerOf 64)) ∧
      evaluateConstantInteger (operation .shiftLeft (integerOf 0) (integerOf 64)) = .ok (some 0) ∧
      ∀ (platform : Platform) (functions : List CoreFunction) (invoke : Invoke platform)
        (locals : Locals platform.Floating) (world : World platform.Floating),
        evaluate platform functions invoke core locals world = .stopped .shiftOutOfRange world) ∧
    ∃ core, lowerOperands (operation .power (integerOf 1) minusOne) 0 = some (core, 0) ∧
      WellTyped (operation .power (integerOf 1) minusOne) ∧
      EveryValueFits (operation .power (integerOf 1) minusOne) ∧
      evaluateConstantInteger (operation .power (integerOf 1) minusOne) = .error .constantNegativeExponent ∧
      ∀ (platform : Platform) (functions : List CoreFunction) (invoke : Invoke platform)
        (locals : Locals platform.Floating) (world : World platform.Floating),
        evaluate platform functions invoke core locals world = .done (.integer 1) world := by
  have hzero : checkedValue 0 = .ok (some 0) := checkedValue_small (by decide)
  have hone : checkedValue 1 = .ok (some 1) := checkedValue_small (by decide)
  have hliteral (number : Int) : WellTyped (integerOf number) := .literal (.inl (by decide))
  refine ⟨⟨_, rfl, .binary (hliteral 0) (hliteral 64) rfl, ?_, ?_, ?_⟩,
    ⟨_, rfl, .binary (hliteral 1) (.unary (hliteral 1) rfl) rfl, ?_, ?_, ?_⟩⟩
  · refine operation_fits rfl (integerOf_fits (.inr (by decide))) (integerOf_fits (.inr (by decide))) ?_
    rintro leftNumber rightNumber result - hright ⟨layout, hlayout, -, hcount, -⟩
    have hwidth : integerLayout? intType = some (true, 64) := by decide
    rw [hwidth] at hlayout
    cases hlayout
    rw [exactValue_integerOf hright] at hcount
    exact absurd hcount (by decide)
  · have hwide : checkedValue 64 = .ok (some 64) := checkedValue_small (by decide)
    have hshift : evaluateCompileTimeShiftLeft 0 64 = .ok 0 :=
      ((evaluateCompileTimeShiftLeft_exactly (withinBound_of_small (by decide)) 64) 0).mpr
        ⟨congrArg some (shifted_left 0 64), withinBound_of_small (by decide)⟩
    simp only [operation, integerOf, evaluateConstantInteger, hzero, hwide, bind, Except.bind, evaluateBinary,
      evaluateBinaryIntegers, hshift]
    rfl
  · intro platform functions invoke locals world
    rfl
  · refine operation_fits rfl (integerOf_fits (.inr (by decide))) minusOne_fits ?_
    intro leftNumber rightNumber result hleft hright happlied
    simp only [BinaryValue] at happlied
    split at happlied
    · rw [happlied]
      exact .inr (wrapInteger_fits (by decide) _)
    · rw [happlied, exactValue_integerOf hleft, one_pow]
      exact .inr (by decide)
  · have hminus : checkedValue (-1) = .ok (some (-1)) := checkedValue_small (by decide)
    simp only [operation, minusOne, integerOf, evaluateConstantInteger, evaluateUnaryInteger, hone, hminus, bind,
      Except.bind, evaluateBinary, evaluateBinaryIntegers]
    rfl
  · intro platform functions invoke locals world
    have hpower : wrapInteger intType (Core.integerPower intType 1 (wrapInteger intType (-1))) = 1 := by
      unfold Core.integerPower
      split <;> rw [one_pow] <;> exact wrapInteger_eq (by decide)
    show Outcome.done (Value.integer (wrapInteger intType (Core.integerPower intType 1 (wrapInteger intType (-1)))))
      world = _
    rw [hpower]

end Samples

end Tala.Frontend
