import Tala.Core.Optimizer.FactRange

/-!
# `Core.Optimizer.FactSoundness` — path facts are sound for conditions

Evaluation is compared with the four analyses of `IntegerFacts`. The unit of reasoning is `Evaluates`: an
accepted expression and the value it has in a store of the types of its scope. What evaluation does to those
types is a parameter (`Discipline`), with integers in integer variables as its instance for runs that call
nothing. Each construct gets one lemma that says what an evaluation of it does to its operands, and one that
derives soundness of the analyses from that of the operands.

One table of the source is not sound: for a primitive on a variable and itself. `meetsSelfTest` follows
the analyses and says whether one of them comes across a row that is wrong.
-/

namespace Tala.Core.Optimizer

open Tala Tala.Core Tala.Library IntegerFacts IntegerConstraint

/-- Primitives that can be true of a variable and itself though the table for one variable, made for
comparisons, has them false. -/
def misreadOnSelf : CorePrimitive → Bool
  | .coreAdd | .coreMultiply | .coreDivide | .coreFloorDivide | .corePower | .coreShiftLeft
  | .coreBitwiseAnd | .coreBitwiseOr => true
  | _ => false

/-- A test of a misread primitive on one integer variable twice. -/
def isSelfTest (primitive : CorePrimitive) (left right : CoreExpression) : Bool :=
  match integerVariable left, integerVariable right with
  | some (leftName, _), some (rightName, _) =>
      leftName.resolvedSymbol = rightName.resolvedSymbol && misreadOnSelf primitive
  | _, _ => false

/-- The analyses of an expression: stepping over it, bounding its value, following its edges. -/
inductive FactAnalysis
  | transfer | fact | refine
  deriving DecidableEq, Repr

open FactAnalysis

/-- Whether an analysis of the expression meets a test that it misreads. -/
def meetsSelfTest : FactAnalysis → CoreExpression → Bool
  | analysis, .corePrimitive primitive arguments valueType =>
      match primitive, arguments, analysis with
      | .coreLogicalNot, [nested], .refine => meetsSelfTest refine nested
      | .coreLogicalAnd, [left, right], .refine => meetsSelfTest refine left || meetsSelfTest refine right
      | .coreLogicalOr, [left, right], .refine => meetsSelfTest refine left || meetsSelfTest refine right
      | .coreLogicalAnd, [left, right], .transfer =>
          meetsSelfTest transfer left || meetsSelfTest refine left || meetsSelfTest transfer right
      | .coreLogicalOr, [left, right], .transfer =>
          meetsSelfTest transfer left || meetsSelfTest refine left || meetsSelfTest transfer right
      | .coreNegate, [value], .fact => isCoreIntegerType valueType && meetsSelfTest fact value
      | _, [left, right], .fact =>
          isCoreIntegerType valueType && (meetsSelfTest fact left || meetsSelfTest fact right)
      | primitive, [left, right], .refine => isSelfTest primitive left right
      | _, _, _ => false
  | analysis, .coreLet _ bindingType value body valueType =>
      match analysis with
      | .transfer => false
      | .fact =>
          isCoreIntegerType valueType && (meetsSelfTest transfer value || meetsSelfTest fact value
            || meetsSelfTest fact body)
      | .refine =>
          meetsSelfTest transfer value || (isCoreIntegerType bindingType && meetsSelfTest fact value)
            || meetsSelfTest refine body
  | analysis, .coreConditional condition whenTrue whenFalse valueType =>
      match analysis with
      | .fact =>
          isCoreIntegerType valueType && (meetsSelfTest transfer condition
            || meetsSelfTest refine condition || meetsSelfTest fact whenTrue
            || meetsSelfTest fact whenFalse)
      | analysis =>
          meetsSelfTest transfer condition || meetsSelfTest refine condition
            || meetsSelfTest analysis whenTrue || meetsSelfTest analysis whenFalse
  | _, _ => false

section Evaluation

variable (platform : Platform) (functions : List CoreFunction)

/-- The invocation that never succeeds: an evaluation with it calls nothing. -/
def noCalls : Invoke platform := fun _ _ _ => .stuck

/-- An integer, wherever the type is one of integers. -/
def HasIntegerType (valueType : Ty) (value : Value platform.Floating) : Prop :=
  isCoreIntegerType valueType = true →
    ∃ n, value = .integer n ∧ integerFitsCoreType valueType n = true

/-- A discipline of types that evaluation keeps: stores that have the types of an environment have integers
where it says so, a call gives a value of its type, and what is bound or assigned has the type of its
expression. -/
structure Discipline (invoke : Invoke platform) where
  holds : Environment → Locals platform.Floating → World platform.Floating → Prop
  integers : ∀ {environment locals world}, holds environment locals world → HoldsIntegers environment locals
  call : ∀ {environment locals world callee arguments valueType value world'},
    verifyExpression environment (.coreApply callee arguments valueType) = [] → holds environment locals world →
    evaluate platform functions invoke (.coreApply callee arguments valueType) locals world = .done value world' →
    HasIntegerType platform valueType value
  evaluated : ∀ {environment locals world expression value world'},
    verifyExpression environment expression = [] → holds environment locals world →
    evaluate platform functions invoke expression locals world = .done value world' →
    holds environment locals world'
  bound : ∀ {environment locals world expression value world'} (symbol : Int) (isMutable : Bool),
    verifyExpression environment expression = [] → holds environment locals world →
    evaluate platform functions invoke expression locals world = .done value world' →
    HasIntegerType platform (expressionType expression) value →
    holds (environment.insert symbol (expressionType expression, isMutable)) (locals.set symbol value) world'
  assigned : ∀ {environment locals world expression value world'} {symbol : Int},
    verifyExpression environment expression = [] → holds environment locals world →
    evaluate platform functions invoke expression locals world = .done value world' →
    HasIntegerType platform (expressionType expression) value →
    environment.find symbol = some (expressionType expression, true) →
    holds environment (locals.set symbol value) world'
  leaves : ∀ {environment locals world} {symbol : Int} {entry : Ty × Bool},
    environment.find symbol = none → holds (environment.insert symbol entry) locals world →
    holds environment locals world

/-- An accepted expression has a value in a store of the types of its environment. -/
structure Evaluates (environment : Environment) (expression : CoreExpression)
    (locals : Locals platform.Floating) (value : Value platform.Floating) : Prop where
  accepted : verifyExpression environment expression = []
  evaluates : ∃ (invoke : Invoke platform) (discipline : Discipline platform functions invoke)
    (world world' : World platform.Floating), discipline.holds environment locals world ∧
      evaluate platform functions invoke expression locals world = .done value world'

/-- An expression of an integer type evaluates to an integer of that type. -/
def IntegerResult (expression : CoreExpression) : Prop :=
  ∀ {environment : Environment} {locals : Locals platform.Floating} {value : Value platform.Floating},
    Evaluates platform functions environment expression locals value →
    HasIntegerType platform (expressionType expression) value

end Evaluation

/-! ## What an evaluation does to its operands -/

section Operands

variable {platform : Platform} {functions : List CoreFunction} {environment : Environment}
  {locals : Locals platform.Floating} {value : Value platform.Floating} {name : ResolvedName}
  {valueType bindingType : Ty} {primitive : CorePrimitive}
  {expression operand left right body condition whenTrue whenFalse : CoreExpression}

theorem finishPrimitive_eq_done {operands : List (Value platform.Floating)}
    {world world' : World platform.Floating} :
    finishPrimitive platform primitive valueType operands world = .done value world' ↔
      ∃ datum, applyPrimitive platform primitive valueType (operands.map Value.observe)
        = .result datum ∧ value = datum.toValue ∧ world = world' := by
  unfold finishPrimitive
  cases applyPrimitive platform primitive valueType (operands.map Value.observe) <;>
    simp [eq_comm]

theorem Evaluates.typed (h : Evaluates platform functions environment expression locals value) :
    HoldsIntegers environment locals := by
  obtain ⟨_, discipline, _, _, hholds, _⟩ := h.evaluates
  exact discipline.integers hholds

theorem Evaluates.variable_value
    (h : Evaluates platform functions environment (.coreVariable name valueType) locals value)
    (ht : isCoreIntegerType valueType = true) :
    ∃ n, value = .integer n ∧ locals name.resolvedSymbol = some (.integer n) ∧
      integerFitsCoreType valueType n = true := by
  obtain ⟨-, -, «mutable», hfind⟩ := verifyExpression_coreVariable.mp h.accepted
  obtain ⟨n, hn, hfits⟩ := h.typed _ _ _ hfind ht
  obtain ⟨invoke, discipline, world, world', hholds, he⟩ := h.evaluates
  simp only [evaluate, readName, hn] at he
  cases he
  exact ⟨n, rfl, hn, hfits⟩

theorem Evaluates.literal_value {literal : CoreLiteral}
    (h : Evaluates platform functions environment (.coreLiteral literal valueType) locals value) :
    value = literalValue platform literal valueType ∧ literalMatches literal valueType = true := by
  obtain ⟨invoke, discipline, world, world', hholds, he⟩ := h.evaluates
  cases he
  exact ⟨rfl, (verifyExpression_coreLiteral.mp h.accepted).2⟩

theorem HoldsIntegers.insert (h : HoldsIntegers environment locals)
    (hv : HasIntegerType platform bindingType value) (assigned : Int) (isMutable : Bool) :
    HoldsIntegers (environment.insert assigned (bindingType, isMutable)) (locals.set assigned value) := by
  intro symbol declared _ hfind ht
  rw [SortedMap.find_insert] at hfind
  split at hfind
  · next heq =>
      cases hfind
      obtain ⟨n, rfl, hfits⟩ := hv ht
      exact ⟨n, by rw [← heq, Locals.set_same], hfits⟩
  · next hne =>
      rw [Locals.set_other (Ne.symm hne)]
      exact h symbol declared _ hfind ht

/-- An assignment keeps the type of the variable. -/
theorem HoldsIntegers.assign (h : HoldsIntegers environment locals)
    (hv : HasIntegerType platform bindingType value) {assigned : Int} {isMutable : Bool}
    (hfind : environment.find assigned = some (bindingType, isMutable)) :
    HoldsIntegers environment (locals.set assigned value) := by
  intro symbol declared isMutable' hfound ht
  by_cases heq : symbol = assigned
  · subst heq
    rw [hfind] at hfound
    cases hfound
    obtain ⟨n, rfl, hfits⟩ := hv ht
    exact ⟨n, Locals.set_same _ _ _, hfits⟩
  · rw [Locals.set_other heq]
    exact h symbol declared isMutable' hfound ht

/-- Names of a scope that is left do not matter outside of it. -/
theorem HoldsIntegers.leave {entry : Ty × Bool} {introduced : Int}
    (h : HoldsIntegers (environment.insert introduced entry) locals)
    (hnone : environment.find introduced = none) : HoldsIntegers environment locals := by
  intro symbol declared isMutable hfound ht
  apply h symbol declared isMutable _ ht
  rw [SortedMap.find_insert, if_neg, hfound]
  rintro rfl
  rw [hnone] at hfound
  cases hfound

/-- The value of a `let` is evaluated first, its body in the store that binds the name to it. -/
theorem Evaluates.let_parts
    (h : Evaluates platform functions environment (.coreLet name bindingType operand body valueType)
      locals value) (hinteger : IntegerResult platform functions operand) :
    ∃ bound, Evaluates platform functions environment operand locals bound ∧
      Evaluates platform functions
        (environment.insert name.resolvedSymbol (bindingType, false)) body
        (locals.set name.resolvedSymbol bound) value := by
  obtain ⟨-, -, -, hoperand, htype, hbody, -⟩ := verifyExpression_coreLet.mp h.accepted
  obtain ⟨invoke, discipline, world, world', hholds, he⟩ := h.evaluates
  simp only [evaluate] at he
  obtain ⟨bound, between, hbound, he⟩ := Outcome.bind_eq_done.mp he
  have hfirst : Evaluates platform functions environment operand locals bound :=
    ⟨hoperand, invoke, discipline, world, between, hholds, hbound⟩
  refine ⟨bound, hfirst, hbody, invoke, discipline, between, world', ?_, he⟩
  rw [htype]
  exact discipline.bound _ _ hoperand hholds hbound (hinteger hfirst)

/-- Only the arm that is selected is evaluated. -/
theorem Evaluates.conditional_parts
    (h : Evaluates platform functions environment (.coreConditional condition whenTrue whenFalse
      valueType) locals value) :
    ∃ tested flag, Evaluates platform functions environment condition locals tested ∧
      truth platform tested.observe = some flag ∧
      Evaluates platform functions environment (if flag then whenTrue else whenFalse) locals value := by
  obtain ⟨-, hcondition, -, htrue, hfalse, -⟩ := verifyExpression_coreConditional.mp h.accepted
  obtain ⟨invoke, discipline, world, world', hholds, he⟩ := h.evaluates
  simp only [evaluate] at he
  obtain ⟨tested, between, htested, he⟩ := Outcome.bind_eq_done.mp he
  obtain ⟨flag, hflag, he⟩ := branchOn_eq_done.mp he
  have hafter := discipline.evaluated hcondition hholds htested
  refine ⟨tested, flag, ⟨hcondition, invoke, discipline, world, between, hholds, htested⟩, hflag, ?_⟩
  cases flag
  · exact ⟨hfalse, invoke, discipline, between, world', hafter, he⟩
  · exact ⟨htrue, invoke, discipline, between, world', hafter, he⟩

/-- Operands of an accepted primitive are accepted. -/
theorem accepted_pair
    (h : verifyExpression environment (.corePrimitive primitive [left, right] valueType) = []) :
    verifyExpression environment left = [] ∧ verifyExpression environment right = [] := by
  obtain ⟨-, hoperands, -⟩ := verifyExpression_corePrimitive.mp h
  rw [verifyExpressions_cons, verifyExpressions_cons] at hoperands
  exact ⟨hoperands.1, hoperands.2.1⟩

theorem Evaluates.unary_parts (hp : primitive ≠ .coreMemoize) (hp' : primitive ≠ .coreRuntimeCall)
    (h : Evaluates platform functions environment (.corePrimitive primitive [operand] valueType)
      locals value) :
    ∃ operandValue datum, Evaluates platform functions environment operand locals operandValue ∧
      applyPrimitive platform primitive valueType [operandValue.observe] = .result datum ∧
      value = datum.toValue := by
  obtain ⟨-, hoperands, -⟩ := verifyExpression_corePrimitive.mp h.accepted
  obtain ⟨invoke, discipline, world, world', hholds, he⟩ := h.evaluates
  have he' : (evaluateMany platform functions invoke [operand] locals world).bind
      (fun values world => finishPrimitive platform primitive valueType values world)
        = .done value world' := by
    rw [← he]
    cases primitive <;> first | rfl | exact absurd rfl hp | exact absurd rfl hp'
  obtain ⟨values, between, hvalues, he⟩ := Outcome.bind_eq_done.mp he'
  simp only [evaluateMany, Outcome.bind_done] at hvalues
  obtain ⟨operandValue, _, hoperand, hvalues⟩ := Outcome.bind_eq_done.mp hvalues
  cases hvalues
  obtain ⟨datum, hdatum, hvalue, -⟩ := finishPrimitive_eq_done.mp he
  exact ⟨operandValue, datum,
    ⟨(verifyExpressions_cons.mp hoperands).1, invoke, discipline, _, _, hholds, hoperand⟩, hdatum, hvalue⟩

/-- Eager primitives evaluate both operands. -/
theorem Evaluates.binary_parts (hp : primitive.isLogical = false) (hp' : primitive ≠ .coreRuntimeCall)
    (h : Evaluates platform functions environment (.corePrimitive primitive [left, right] valueType)
      locals value) :
    ∃ leftValue rightValue datum, Evaluates platform functions environment left locals leftValue ∧
      Evaluates platform functions environment right locals rightValue ∧
      applyPrimitive platform primitive valueType [leftValue.observe, rightValue.observe]
        = .result datum ∧
      value = datum.toValue := by
  obtain ⟨hleft, hright⟩ := accepted_pair h.accepted
  obtain ⟨invoke, discipline, world, world', hholds, he⟩ := h.evaluates
  have he' : (evaluateMany platform functions invoke [left, right] locals world).bind
      (fun values world => finishPrimitive platform primitive valueType values world)
        = .done value world' := by
    rw [← he]
    cases primitive <;> first | rfl | exact absurd rfl hp' | cases hp
  obtain ⟨values, between, hvalues, he⟩ := Outcome.bind_eq_done.mp he'
  simp only [evaluateMany, Outcome.bind_done] at hvalues
  obtain ⟨leftValue, middle, hleftValue, hvalues⟩ := Outcome.bind_eq_done.mp hvalues
  obtain ⟨rest, _, hrest, hvalues⟩ := Outcome.bind_eq_done.mp hvalues
  obtain ⟨rightValue, _, hrightValue, hrest⟩ := Outcome.bind_eq_done.mp hrest
  cases hrest
  cases hvalues
  obtain ⟨datum, hdatum, hvalue, -⟩ := finishPrimitive_eq_done.mp he
  have hafter := discipline.evaluated hleft hholds hleftValue
  exact ⟨leftValue, rightValue, datum, ⟨hleft, invoke, discipline, _, _, hholds, hleftValue⟩,
    ⟨hright, invoke, discipline, _, _, hafter, hrightValue⟩, hdatum, hvalue⟩

/-- `&&` and `||`: the left operand decides when its truth is `stop`, else the right one does. -/
def ShortCircuits (platform : Platform) (functions : List CoreFunction) (environment : Environment)
    (locals : Locals platform.Floating) (value : Value platform.Floating)
    (left right : CoreExpression) (stop : Bool) : Prop :=
  ∃ leftValue flag, Evaluates platform functions environment left locals leftValue ∧
    truth platform leftValue.observe = some flag ∧
    if flag = stop then value = .boolean stop
    else ∃ rightValue result, Evaluates platform functions environment right locals rightValue ∧
      truth platform rightValue.observe = some result ∧ value = .boolean result

theorem Evaluates.logical_parts {stop : Bool} (h : Evaluates platform functions environment (.corePrimitive
      (bif stop then .coreLogicalOr else .coreLogicalAnd) [left, right] valueType) locals value) :
    ShortCircuits platform functions environment locals value left right stop := by
  obtain ⟨hleft, hright⟩ := accepted_pair h.accepted
  obtain ⟨invoke, discipline, world, world', hholds, he⟩ := h.evaluates
  cases stop
  all_goals
    simp only [cond_false, cond_true, evaluate] at he
    obtain ⟨leftValue, between, hleftValue, he⟩ := Outcome.bind_eq_done.mp he
    obtain ⟨flag, hflag, he⟩ := branchOn_eq_done.mp he
    refine ⟨leftValue, flag, ⟨hleft, invoke, discipline, _, _, hholds, hleftValue⟩, hflag, ?_⟩
    cases flag
  case false.false | true.true =>
    cases he
    rfl
  case false.true | true.false =>
    obtain ⟨rightValue, after, hrightValue, he⟩ := Outcome.bind_eq_done.mp he
    obtain ⟨result, hresult, he⟩ := branchOn_eq_done.mp he
    cases he
    have hafter := discipline.evaluated hleft hholds hleftValue
    exact ⟨rightValue, result, ⟨hright, invoke, discipline, _, _, hafter, hrightValue⟩, hresult, rfl⟩

end Operands

/-! ## Integer results -/

theorem not_integer_of_floating {valueType : Ty} (h : isCoreFloatingType valueType = true) :
    isCoreIntegerType valueType = false := by
  simp only [isCoreFloatingType, coreFloatingTypeNames, List.contains_iff_mem, List.mem_cons,
    List.not_mem_nil, or_false] at h
  rcases h with h | h | h | h <;> rw [isCoreIntegerType, h] <;> decide

theorem not_integer_of_referenceLike {valueType : Ty} (h : isReferenceLike valueType = true) :
    isCoreIntegerType valueType = false := by
  cases valueType with
  | namedType name arguments =>
      simp only [isReferenceLike, isCoreNumericType_eq, Bool.and_eq_true, Bool.not_eq_true',
        Bool.or_eq_false_iff] at h
      exact h.1.1
  | functionType _ _ => rfl
  | typeVariable _ => cases h
  | errorType => cases h

theorem not_integer_of_runtimeResult (function : RuntimeFunction) :
    isCoreIntegerType (runtimeResultType function) = false := by
  cases function <;> decide

section IntegerResults

variable {platform : Platform} {functions : List CoreFunction} {environment : Environment}
  {valueType : Ty} {primitive : CorePrimitive} {arguments : List CoreExpression}

/-- An accepted memoization has a callable without parameters as its operand. -/
theorem memoize_operand {argumentTypes : List Ty} (h : operandProblems .coreMemoize argumentTypes = [])
    (hlength : argumentTypes.length = 1) :
    ∃ result, argumentTypes = [.functionType [] result] := by
  match argumentTypes, hlength with
  | [.functionType [] result], _ => exact ⟨result, rfl⟩
  | [.functionType (_ :: _) _], _ => exact nomatch h
  | [.namedType _ _], _ => exact nomatch h
  | [.typeVariable _], _ => exact nomatch h
  | [.errorType], _ => exact nomatch h

/-- The primitives whose result can be an integer: arithmetic and bit operations. -/
theorem integer_primitive
    (h : verifyExpression environment (.corePrimitive primitive arguments valueType) = [])
    (ht : isCoreIntegerType valueType = true) :
    primitive ≠ .coreRuntimeCall ∧ primitive.isLogical = false ∧ primitive.isComparison = false ∧
      primitive ≠ .coreTypeIs ∧ primitive ≠ .coreMemoize ∧ arguments.length = primitive.arity ∧
      (primitive ≠ .coreFloorDivide → firstType (arguments.map expressionType) = valueType) := by
  obtain ⟨-, -, hproblems⟩ := verifyExpression_corePrimitive.mp h
  by_cases hruntime : primitive = .coreRuntimeCall
  · subst hruntime
    obtain ⟨function, -, -, rfl⟩ := runtimeCallDefect_eq_none.mp (runtimeCallProblems_eq_nil.mp hproblems)
    rw [not_integer_of_runtimeResult] at ht
    cases ht
  · obtain ⟨harity, hoperands, hresult⟩ := (primitiveProblems_eq_nil hruntime).mp hproblems
    have hbool : valueType ≠ boolType := by
      rintro rfl
      exact absurd ht (by decide)
    have htruth : (primitive.isLogical || primitive.isComparison || primitive = .coreTypeIs) = false := by
      rw [Bool.eq_false_iff]
      intro hany
      rw [expectedResult, if_pos hany] at hresult
      exact hbool hresult.symm
    simp only [Bool.or_eq_false_iff, decide_eq_false_iff_not] at htruth
    rw [expectedResult, htruth.1.1, htruth.1.2, if_neg (by simpa using htruth.2)] at hresult
    refine ⟨hruntime, htruth.1.1, htruth.1.2, htruth.2, ?_, harity, ?_⟩
    · -- the operand of a memoization, and so its result, is a callable
      rintro rfl
      obtain ⟨result, hmap⟩ := memoize_operand hoperands (by rw [List.length_map, harity]; rfl)
      rw [if_neg (by simp), hmap] at hresult
      cases hresult
      cases ht
    · intro hfloor
      rw [if_neg (by simp [hfloor])] at hresult
      exact hresult

theorem applyEquality_undefined {equal : Bool} (h : primitive.isComparison = false) :
    applyEquality platform primitive equal = .undefined := by
  cases primitive <;> first | rfl | cases h

/-- Arithmetic on two operands of an integer type stays in the type. -/
theorem applyInteger_fits {n m : Int} {datum : Datum platform.Floating}
    (hc : primitive.isComparison = false) (ht : isCoreIntegerType valueType = true)
    (h : applyInteger platform primitive valueType n m = .result datum) :
    ∃ k, datum = .integer k ∧ integerFitsCoreType valueType k = true := by
  have hwrap := fun k => wrapInteger_fits ht k
  cases primitive <;> first | exact absurd hc (by decide) | simp only [applyInteger] at h
  all_goals
    first
      | (cases h; done)
      | (cases h; exact ⟨_, rfl, hwrap _⟩)
      | (split at h <;> cases h; exact ⟨_, rfl, hwrap _⟩)

theorem applyPrimitive_fits {left right datum : Datum platform.Floating}
    (hc : primitive.isComparison = false) (hi : primitive ≠ .coreTypeIs)
    (ht : isCoreIntegerType valueType = true) (hleft : primitive ≠ .coreFloorDivide → ∃ n, left = .integer n)
    (h : applyPrimitive platform primitive valueType [left, right] = .result datum) :
    ∃ k, datum = .integer k ∧ integerFitsCoreType valueType k = true := by
  rw [applyPrimitive, if_neg hi, applyBinary.eq_def] at h
  split at h
  · exact applyInteger_fits hc ht h
  · rw [applyFloating, if_neg (by simp [hc])] at h
    split at h
    · cases h
      exact ⟨_, rfl, wrapInteger_fits ht _⟩
    · next hfloor =>
        obtain ⟨n, hn⟩ := hleft hfloor
        cases hn
  · rw [applyEquality_undefined hc] at h
    cases h
  · rw [applyEquality_undefined hc] at h
    cases h

theorem integerResult_primitive (ih : ∀ argument ∈ arguments, IntegerResult platform functions argument) :
    IntegerResult platform functions (.corePrimitive primitive arguments valueType) := by
  intro environment locals value h ht
  obtain ⟨hruntime, hlogical, hcomparison, hidentity, hmemoize, harity, hfirst⟩ :=
    integer_primitive h.accepted ht
  match arguments, harity with
  | [operand], harity =>
      obtain ⟨operandValue, datum, hoperand, hdatum, rfl⟩ := h.unary_parts hmemoize hruntime
      have hfloor : primitive ≠ .coreFloorDivide := by
        rintro rfl
        cases harity
      have hoperandType : expressionType operand = valueType := hfirst hfloor
      obtain ⟨n, rfl, -⟩ := ih operand (by simp) hoperand (by rw [hoperandType]; exact ht)
      cases primitive <;> simp [applyPrimitive, applyUnary, Value.observe] at hdatum <;> try cases hlogical
      all_goals
        subst hdatum
        exact ⟨_, rfl, wrapInteger_fits ht _⟩
  | [left, right], harity =>
      obtain ⟨leftValue, rightValue, datum, hleft, -, hdatum, rfl⟩ := h.binary_parts hlogical hruntime
      obtain ⟨k, rfl, hfits⟩ := applyPrimitive_fits hcomparison hidentity ht (fun hfloor => by
        have hleftType : expressionType left = valueType := hfirst hfloor
        obtain ⟨n, rfl, -⟩ := ih left (by simp) hleft (by rw [hleftType]; exact ht)
        exact ⟨n, rfl⟩) hdatum
      exact ⟨k, rfl, hfits⟩
  | [], harity => cases primitive <;> cases harity
  | _ :: _ :: _ :: _, harity => cases primitive <;> cases harity

theorem integerResult_literal {literal : CoreLiteral} :
    IntegerResult platform functions (.coreLiteral literal valueType) := by
  intro environment locals value h ht
  obtain ⟨rfl, hmatch⟩ := h.literal_value
  cases literal with
  | coreInteger n => exact ⟨n, rfl, hmatch⟩
  | coreFloating spelling =>
      have hfloating := (Bool.and_eq_true_iff.mp hmatch).1
      rw [expressionType, not_integer_of_floating hfloating] at ht
      cases ht
  | coreNull =>
      rw [expressionType, not_integer_of_referenceLike hmatch] at ht
      cases ht
  | coreString text =>
      rw [expressionType, of_decide_eq_true hmatch] at ht
      exact absurd ht (by decide)
  | coreBoolean flag =>
      rw [expressionType, of_decide_eq_true hmatch] at ht
      exact absurd ht (by decide)
  | coreUnit =>
      rw [expressionType, of_decide_eq_true hmatch] at ht
      exact absurd ht (by decide)

/-- **Integer expressions evaluate to integers of their types.** -/
theorem integerResult (expression : CoreExpression) : IntegerResult platform functions expression := by
  induction expression using CoreExpression.induct with
  | coreVariable name valueType =>
      intro environment locals value h ht
      obtain ⟨n, rfl, -, hfits⟩ := h.variable_value ht
      exact ⟨n, rfl, hfits⟩
  | coreLiteral literal valueType => exact integerResult_literal
  | coreApply callee arguments valueType ihCallee ihArguments =>
      intro environment locals value h
      obtain ⟨invoke, discipline, world, world', hholds, he⟩ := h.evaluates
      exact discipline.call h.accepted hholds he
  | corePrimitive primitive arguments valueType ih => exact integerResult_primitive ih
  | coreLet name bindingType operand body valueType ihOperand ihBody =>
      intro environment locals value h ht
      obtain ⟨bound, -, hbody⟩ := h.let_parts ihOperand
      obtain ⟨-, -, -, -, -, -, htype⟩ := verifyExpression_coreLet.mp h.accepted
      rw [expressionType, htype] at ht ⊢
      exact ihBody hbody ht
  | coreConditional condition whenTrue whenFalse valueType ihCondition ihTrue ihFalse =>
      intro environment locals value h ht
      obtain ⟨tested, flag, -, -, harm⟩ := h.conditional_parts
      obtain ⟨-, -, -, -, -, htrue, hfalse, -⟩ := verifyExpression_coreConditional.mp h.accepted
      cases flag
      · rw [expressionType, hfalse] at ht ⊢
        exact ihFalse harm ht
      · rw [expressionType, htrue] at ht ⊢
        exact ihTrue harm ht
  | coreClosure captures parameters returnType body valueType ih =>
      intro environment locals value h ht
      obtain ⟨-, -, -, -, -, htype, -⟩ := verifyExpression_coreClosure.mp h.accepted
      rw [expressionType, htype] at ht
      cases ht

end IntegerResults

/-! ## Soundness of the analyses -/

/-- **Soundness of the analyses of one expression**, in every store its facts describe. -/
structure AnalysesSound (platform : Platform) (functions : List CoreFunction)
    (expression : CoreExpression) : Prop where
  transfer : ∀ {environment : Environment} {facts : IntegerFacts} {locals : Locals platform.Floating}
    {value : Value platform.Floating},
    Evaluates platform functions environment expression locals value → facts.Describes locals →
    meetsSelfTest .transfer expression = false →
    (transferExpressionFacts facts expression).Describes locals
  fact : ∀ {environment : Environment} {facts : IntegerFacts} {locals : Locals platform.Floating}
    {value : Value platform.Floating} {known : IntegerFact},
    Evaluates platform functions environment expression locals value → facts.Describes locals →
    meetsSelfTest .fact expression = false →
    factOfIntegerExpression facts expression = some known →
    ∃ n, value = .integer n ∧ factContains known n = true
  refine : ∀ {environment : Environment} {facts : IntegerFacts} {locals : Locals platform.Floating}
    {value : Value platform.Floating} {flag : Bool},
    Evaluates platform functions environment expression locals value → facts.Describes locals →
    meetsSelfTest .refine expression = false → truth platform value.observe = some flag →
    (refineConditionFacts flag expression facts).Describes locals
  decides : ∀ {environment : Environment} {facts : IntegerFacts} {locals : Locals platform.Floating}
    {value : Value platform.Floating} {flag decided : Bool},
    Evaluates platform functions environment expression locals value → facts.Describes locals →
    meetsSelfTest .refine expression = false → truth platform value.observe = some flag →
    truthOfCondition facts expression = some decided → decided = flag

section Soundness

variable {platform : Platform} {functions : List CoreFunction} {environment : Environment}
  {facts : IntegerFacts} {locals : Locals platform.Floating} {value : Value platform.Floating}
  {name : ResolvedName} {valueType bindingType : Ty} {primitive : CorePrimitive} {flag decided : Bool}
  {expression operand left right body condition whenTrue whenFalse : CoreExpression}

attribute [local simp] meetsSelfTest

/-- An edge that is found infeasible is not the one that was taken. -/
theorem AnalysesSound.conditionTruth (h : AnalysesSound platform functions expression)
    (he : Evaluates platform functions environment expression locals value)
    (hd : facts.Describes locals) (hmeets : meetsSelfTest .refine expression = false)
    (ht : truth platform value.observe = some flag)
    (hdecided : conditionTruthFromFacts facts expression = some decided) : decided = flag := by
  have hedge := (h.refine he hd hmeets ht).not_unreachable
  obtain ⟨entries, rfl⟩ := hd.reachable
  simp only [conditionTruthFromFacts, truthFromEdges] at hdecided
  split at hdecided
  · cases hdecided
  · split at hdecided
    · next hinfeasible =>
        cases hdecided
        cases flag
        · rfl
        · rw [hedge] at hinfeasible
          cases hinfeasible
    · split at hdecided
      · next hinfeasible =>
          cases hdecided
          cases flag
          · rw [hedge] at hinfeasible
            cases hinfeasible
          · rfl
      · exact h.decides he hd hmeets ht hdecided

/-- An expression the analyses do not look into: nothing is lost but what a call may write. -/
theorem describes_unlessInvokes (hd : facts.Describes locals) (invokes : Bool) :
    (if invokes then emptyIntegerFacts else facts).Describes locals := by
  cases invokes
  · exact hd
  · exact describes_empty locals

theorem analysesSound_coreLiteral (literal : CoreLiteral) :
    AnalysesSound platform functions (.coreLiteral literal valueType) where
  transfer he hd _ := by
    obtain ⟨entries, rfl⟩ := hd.reachable
    exact hd
  fact he hd _ hknown := by
    obtain ⟨rfl, -⟩ := he.literal_value
    cases literal with
    | coreInteger n =>
        rw [factOfIntegerExpression] at hknown
        split at hknown
        · cases hknown
          exact ⟨n, rfl, exactFact_contains n⟩
        · cases hknown
    | _ => cases hknown
  refine he hd _ ht := by
    obtain ⟨rfl, -⟩ := he.literal_value
    obtain ⟨entries, rfl⟩ := hd.reachable
    cases literal with
    | coreInteger n =>
        cases ht
        simp only [refineConditionFacts, ne_eq, not_true_eq_false, decide_false, Bool.and_false,
          Bool.false_eq_true, if_false]
        exact hd
    | coreBoolean n =>
        cases ht
        simp only [refineConditionFacts, ne_eq, not_true_eq_false, if_false]
        exact hd
    | _ => exact hd
  decides he hd _ ht hdecided := by
    obtain ⟨rfl, -⟩ := he.literal_value
    cases literal with
    | coreInteger n =>
        cases ht
        rw [truthOfCondition] at hdecided
        split at hdecided
        · cases hdecided
          rfl
        · cases hdecided
    | coreBoolean n =>
        cases ht
        cases hdecided
        rfl
    | _ => cases hdecided

theorem analysesSound_coreVariable :
    AnalysesSound platform functions (.coreVariable name valueType) where
  transfer he hd _ := by
    obtain ⟨entries, rfl⟩ := hd.reachable
    exact hd
  fact he hd _ hknown := by
    rw [factOfIntegerExpression] at hknown
    split at hknown
    · next hinteger =>
        obtain ⟨n, rfl, hn, hfits⟩ := he.variable_value hinteger
        cases hknown
        exact ⟨n, rfl, hd.factForSymbol_contains hn hfits⟩
    · cases hknown
  refine he hd _ ht := by
    obtain ⟨entries, rfl⟩ := hd.reachable
    simp only [refineConditionFacts]
    split
    · next hinteger =>
        obtain ⟨n, rfl, hn, hfits⟩ := he.variable_value hinteger
        cases ht
        refine hd.constrain hn hfits ?_
        -- the true edge excludes zero, the false edge is zero
        by_cases hzero : n = 0
        · simp [hzero, IntegerConstraint.Holds]
        · simp [hzero, IntegerConstraint.Holds]
    · exact hd
  decides he hd _ ht hdecided := by
    rw [truthOfCondition] at hdecided
    split at hdecided
    · next hinteger =>
        obtain ⟨n, rfl, hn, hfits⟩ := he.variable_value hinteger
        cases ht
        exact factTruth_sound (hd.factForSymbol_contains hn hfits) hdecided
    · cases hdecided

variable {arguments : List CoreExpression}

theorem analysesSound_coreApply {callee : CoreExpression} :
    AnalysesSound platform functions (.coreApply callee arguments valueType) where
  transfer he hd _ := by
    obtain ⟨entries, rfl⟩ := hd.reachable
    exact describes_empty _
  fact _ _ _ hknown := by cases hknown
  refine he hd _ _ := by
    obtain ⟨entries, rfl⟩ := hd.reachable
    exact describes_empty _
  decides _ _ _ _ hdecided := by cases hdecided

theorem analysesSound_coreClosure {captures : List CoreCapture}
    {parameters : List (ResolvedName × Ty)} {returnType : Ty} {statements : List CoreStatement} :
    AnalysesSound platform functions
      (.coreClosure captures parameters returnType statements valueType) where
  transfer he hd _ := by
    obtain ⟨entries, rfl⟩ := hd.reachable
    exact describes_unlessInvokes hd _
  fact _ _ _ hknown := by cases hknown
  refine he hd _ _ := by
    obtain ⟨entries, rfl⟩ := hd.reachable
    exact describes_unlessInvokes hd _
  decides _ _ _ _ hdecided := by cases hdecided

theorem analysesSound_coreLet (hoperand : AnalysesSound platform functions operand)
    (hbody : AnalysesSound platform functions body) :
    AnalysesSound platform functions (.coreLet name bindingType operand body valueType) where
  transfer he hd _ := by
    obtain ⟨entries, rfl⟩ := hd.reachable
    exact describes_unlessInvokes hd _
  fact he hd hmeets hknown := by
    obtain ⟨bound, hfirst, hrest⟩ := he.let_parts (integerResult operand)
    rw [factOfIntegerExpression] at hknown
    split at hknown
    · next hinteger =>
        simp only [meetsSelfTest, hinteger, Bool.true_and, Bool.or_eq_false_iff] at hmeets
        have hafter := hoperand.transfer hfirst hd hmeets.1.1
        refine hbody.fact hrest (hafter.set (fun _ hne => Locals.set_other hne) ?_) hmeets.2 hknown
        intro known hoperandFact
        obtain ⟨n, rfl, hcontains⟩ := hoperand.fact hfirst hafter hmeets.1.2 hoperandFact
        exact ⟨n, Locals.set_same _ _ _, hcontains⟩
    · cases hknown
  refine he hd hmeets ht := by
    obtain ⟨entries, rfl⟩ := hd.reachable
    obtain ⟨bound, hfirst, hrest⟩ := he.let_parts (integerResult operand)
    simp only [meetsSelfTest, Bool.or_eq_false_iff] at hmeets
    have hafter := hoperand.transfer hfirst hd hmeets.1.1
    have hagain := hoperand.transfer hfirst hafter hmeets.1.1
    simp only [refineConditionFacts]
    refine (hbody.refine hrest (hagain.set (fun _ hne => Locals.set_other hne) ?_) hmeets.2 ht).forget
      fun _ hne => (Locals.set_other hne).symm
    intro known hknown
    split at hknown
    · cases hknown
    · split at hknown
      · next hinteger =>
          simp only [hinteger, Bool.true_and] at hmeets
          obtain ⟨n, rfl, hcontains⟩ := hoperand.fact hfirst hafter hmeets.1.2 hknown
          exact ⟨n, Locals.set_same _ _ _, hcontains⟩
      · cases hknown
  decides _ _ _ _ hdecided := by cases hdecided

/-- A condition sends its facts along the edge it takes, whatever was stepped over before. -/
theorem AnalysesSound.edge (h : AnalysesSound platform functions condition)
    (he : Evaluates platform functions environment condition locals value)
    (hd : facts.Describes locals) (htransfer : meetsSelfTest .transfer condition = false)
    (hrefine : meetsSelfTest .refine condition = false) (ht : truth platform value.observe = some flag) :
    (refineConditionFacts flag condition (transferExpressionFacts facts condition)).Describes locals :=
  h.refine he (h.transfer he hd htransfer) hrefine ht

theorem analysesSound_coreConditional (hcondition : AnalysesSound platform functions condition)
    (htrue : AnalysesSound platform functions whenTrue) (hfalse : AnalysesSound platform functions whenFalse) :
    AnalysesSound platform functions (.coreConditional condition whenTrue whenFalse valueType) where
  transfer he hd hmeets := by
    obtain ⟨entries, rfl⟩ := hd.reachable
    obtain ⟨tested, flag, htested, hflag, harm⟩ := he.conditional_parts
    simp only [meetsSelfTest, Bool.or_eq_false_iff] at hmeets
    obtain ⟨⟨⟨htransfer, hrefine⟩, hmeetsTrue⟩, hmeetsFalse⟩ := hmeets
    have hedge := hcondition.edge htested hd htransfer hrefine hflag
    simp only [transferExpressionFacts]
    cases flag
    · exact (hfalse.transfer harm hedge hmeetsFalse).join_right _
    · exact (htrue.transfer harm hedge hmeetsTrue).join_left _
  fact he hd hmeets hknown := by
    obtain ⟨tested, flag, htested, hflag, harm⟩ := he.conditional_parts
    rw [factOfIntegerExpression] at hknown
    split at hknown
    · next hinteger =>
        simp only [meetsSelfTest, hinteger, Bool.true_and, Bool.or_eq_false_iff] at hmeets
        obtain ⟨⟨⟨htransfer, hrefine⟩, hmeetsTrue⟩, hmeetsFalse⟩ := hmeets
        have hedge := hcondition.edge htested hd htransfer hrefine hflag
        have hreached := hedge.not_unreachable
        simp only at hknown
        -- the arm that is evaluated is on an edge that is not infeasible
        split at hknown
        · cases hknown
        · next hinfeasible hfeasible =>
            cases flag
            · exact hfalse.fact harm hedge hmeetsFalse hknown
            · rw [hreached] at hinfeasible
              cases hinfeasible
        · next hfeasible hinfeasible =>
            cases flag
            · rw [hreached] at hinfeasible
              cases hinfeasible
            · exact htrue.fact harm hedge hmeetsTrue hknown
        · simp only [Option.bind_eq_bind, Option.bind_eq_some_iff] at hknown
          obtain ⟨trueFact, htrueFact, falseFact, hfalseFact, hjoin⟩ := hknown
          cases hjoin
          cases flag
          · obtain ⟨n, rfl, hcontains⟩ := hfalse.fact harm hedge hmeetsFalse hfalseFact
            exact ⟨n, rfl, joinFact_contains_right hcontains⟩
          · obtain ⟨n, rfl, hcontains⟩ := htrue.fact harm hedge hmeetsTrue htrueFact
            exact ⟨n, rfl, joinFact_contains_left hcontains⟩
    · cases hknown
  refine he hd hmeets ht := by
    obtain ⟨entries, rfl⟩ := hd.reachable
    obtain ⟨tested, flag, htested, hflag, harm⟩ := he.conditional_parts
    simp only [meetsSelfTest, Bool.or_eq_false_iff] at hmeets
    obtain ⟨⟨⟨htransfer, hrefine⟩, hmeetsTrue⟩, hmeetsFalse⟩ := hmeets
    have hedge := hcondition.edge htested hd htransfer hrefine hflag
    simp only [refineConditionFacts]
    cases flag
    · exact (hfalse.refine harm hedge hmeetsFalse ht).join_right _
    · exact (htrue.refine harm hedge hmeetsTrue ht).join_left _
  decides he hd hmeets ht hdecided := by
    obtain ⟨tested, flag, htested, hflag, harm⟩ := he.conditional_parts
    simp only [meetsSelfTest, Bool.or_eq_false_iff] at hmeets
    obtain ⟨⟨⟨-, hrefine⟩, hmeetsTrue⟩, hmeetsFalse⟩ := hmeets
    have hedge := hcondition.refine htested hd hrefine hflag
    rw [truthOfCondition] at hdecided
    split at hdecided
    · next hselected =>
        have hselect := hcondition.conditionTruth htested hd hrefine hflag hselected
        cases hselect
        exact htrue.conditionTruth harm hedge hmeetsTrue ht hdecided
    · next hselected =>
        have hselect := hcondition.conditionTruth htested hd hrefine hflag hselected
        cases hselect
        exact hfalse.conditionTruth harm hedge hmeetsFalse ht hdecided
    · cases hdecided

/-! ### Primitives -/

theorem integerVariable_eq_some (h : integerVariable expression = some (name, valueType)) :
    expression = .coreVariable name valueType ∧ isCoreIntegerType valueType = true := by
  cases expression with
  | coreVariable _ _ =>
      rw [integerVariable] at h
      split at h
      · next hinteger =>
          cases h
          exact ⟨rfl, hinteger⟩
      · cases h
  | _ => cases h

theorem integerLiteral_eq_some {n : Int} (h : integerLiteral expression = some n) :
    ∃ valueType, expression = .coreLiteral (.coreInteger n) valueType := by
  cases expression with
  | coreLiteral literal valueType =>
      cases literal with
      | coreInteger m =>
          rw [integerLiteral] at h
          split at h
          · cases h
            exact ⟨valueType, rfl⟩
          · cases h
      | _ => cases h
  | _ => cases h

/-- An operand the comparison tables look at, with its value in a store. -/
inductive OperandIs {φ : Type} (locals : Locals φ) (expression : CoreExpression) (n : Int) : Prop
  | variable (name : ResolvedName) (valueType : Ty)
      (shape : integerVariable expression = some (name, valueType))
      (held : locals name.resolvedSymbol = some (.integer n))
      (fits : integerFitsCoreType valueType n = true)
  | literal (shape : integerLiteral expression = some n)

theorem Evaluates.operandIs_variable
    (h : Evaluates platform functions environment expression locals value)
    (hshape : integerVariable expression = some (name, valueType)) :
    ∃ n, OperandIs locals expression n ∧ locals name.resolvedSymbol = some (.integer n) ∧
      integerFitsCoreType valueType n = true := by
  obtain ⟨rfl, hinteger⟩ := integerVariable_eq_some hshape
  obtain ⟨n, -, hn, hfits⟩ := h.variable_value hinteger
  exact ⟨n, .variable name valueType hshape hn hfits, hn, hfits⟩

theorem Evaluates.eq_of_operandIs {n : Int}
    (h : Evaluates platform functions environment expression locals value)
    (hoperand : OperandIs locals expression n) : value = .integer n := by
  cases hoperand with
  | «variable» name valueType hshape hheld _ =>
      obtain ⟨rfl, hinteger⟩ := integerVariable_eq_some hshape
      obtain ⟨m, rfl, hm, -⟩ := h.variable_value hinteger
      rw [hheld] at hm
      cases hm
      rfl
  | literal hshape =>
      obtain ⟨valueType, rfl⟩ := integerLiteral_eq_some hshape
      exact h.literal_value.1

section Comparison

variable (hleft : Evaluates platform functions environment left locals value)
  {other : Value platform.Floating} (hright : Evaluates platform functions environment right locals other)
  (hd : facts.Describes locals)
  (hb : ∀ n m, OperandIs locals left n → OperandIs locals right m →
    ∀ t, evaluateIntegerComparison primitive n m = some t → t = flag)

include hleft hright hd hb

theorem refineComparison_describes
    (hself : ∀ leftName leftType rightName rightType,
      integerVariable left = some (leftName, leftType) →
      integerVariable right = some (rightName, rightType) →
      leftName.resolvedSymbol = rightName.resolvedSymbol →
      comparisonAlwaysTrueForSelf primitive = flag) :
    (refineComparison flag primitive left right facts).Describes locals := by
  unfold refineComparison
  split
  · next leftName leftType rightName rightType hl hr =>
      obtain ⟨n, hn, hheld, hfits⟩ := hleft.operandIs_variable hl
      obtain ⟨m, hm, hheld', hfits'⟩ := hright.operandIs_variable hr
      exact refineVariableAgainstVariable_describes hd hheld hfits hheld' hfits' (hb n m hn hm)
        (hself _ _ _ _ hl hr)
  · split
    · next name valueType literal hl hr =>
        obtain ⟨n, hn, hheld, hfits⟩ := hleft.operandIs_variable hl
        exact hd.refineAgainstLiteral hheld hfits (hb n literal hn (.literal hr))
    · split
      · next literal name valueType hl hr =>
          obtain ⟨m, hm, hheld, hfits⟩ := hright.operandIs_variable hr
          refine hd.refineAgainstLiteral hheld hfits ?_
          rw [evaluateIntegerComparison_reverse]
          exact hb literal m (.literal hl) hm
      · exact hd

theorem comparisonTruth_sound (h : comparisonTruth facts primitive left right = some decided) :
    decided = flag := by
  unfold comparisonTruth at h
  split at h
  · next leftName leftType rightName rightType hl hr =>
      obtain ⟨n, hn, hheld, hfits⟩ := hleft.operandIs_variable hl
      obtain ⟨m, hm, hheld', hfits'⟩ := hright.operandIs_variable hr
      exact hb n m hn hm decided (compareFacts_sound (hd.factForSymbol_contains hheld hfits)
        (hd.factForSymbol_contains hheld' hfits') h)
  · split at h
    · next name valueType literal hl hr =>
        obtain ⟨n, hn, hheld, hfits⟩ := hleft.operandIs_variable hl
        exact hb n literal hn (.literal hr) decided
          (compareInterval_sound (hd.factForSymbol_contains hheld hfits) h)
    · split at h
      · next literal name valueType hl hr =>
          obtain ⟨m, hm, hheld, hfits⟩ := hright.operandIs_variable hr
          have hcompare := compareInterval_sound (hd.factForSymbol_contains hheld hfits) h
          rw [evaluateIntegerComparison_reverse] at hcompare
          exact hb literal m (.literal hl) hm decided hcompare
      · split at h
        · next n m hl hr => exact hb n m (.literal hl) (.literal hr) decided h
        · cases h

end Comparison

theorem applyInteger_comparison {n m : Int} {t : Bool} (h : evaluateIntegerComparison primitive n m = some t) :
    applyInteger platform primitive valueType n m = .result (.boolean t) := by
  cases primitive <;> simp only [evaluateIntegerComparison, Option.some.injEq] at h <;>
    first
      | (subst h; rfl)
      | cases h

/-- What a comparison of integers evaluates to. -/
theorem comparison_eq_flag {n m : Int} {datum : Datum platform.Floating} (hp : primitive ≠ .coreTypeIs)
    (hresult : applyPrimitive platform primitive valueType [.integer n, .integer m] = .result datum)
    (ht : truth platform datum = some flag) :
    ∀ t, evaluateIntegerComparison primitive n m = some t → t = flag := by
  intro t h
  rw [applyPrimitive, if_neg hp] at hresult
  have happly : applyInteger platform primitive valueType n m = .result (.boolean t) :=
    applyInteger_comparison h
  rw [show applyBinary platform primitive valueType (.integer n) (.integer m)
    = .result (.boolean t) from happly] at hresult
  cases hresult
  exact Option.some.inj ht

theorem wrapInteger_zero (valueType : Ty) : wrapInteger valueType 0 = 0 := by
  by_cases hinteger : isCoreIntegerType valueType = true
  · exact wrapInteger_eq (integerFitsCoreType_zero hinteger)
  · have hlayout : integerLayout? valueType = none := by
      cases hl : integerLayout? valueType with
      | none => rfl
      | some layout => exact absurd (isCoreIntegerType_iff_layout.mpr ⟨layout, hl⟩) hinteger
    simp [wrapInteger, hlayout]

/-- Shifting a number right by itself leaves nothing. -/
theorem shiftRight_self {n : Int} (h : 0 ≤ n) : n >>> n.toNat = 0 := by
  rw [Int.shiftRight_eq_div_pow]
  refine Int.ediv_eq_zero_of_lt h ?_
  have hpow : n.toNat < 2 ^ n.toNat := Nat.lt_two_pow_self
  have hcast : ((n.toNat : Nat) : Int) < ((2 ^ n.toNat : Nat) : Int) := Int.ofNat_lt.mpr hpow
  rwa [Int.toNat_of_nonneg h] at hcast

theorem xor_self (n : Int) : n.xor n = 0 := by
  cases n <;> simp [Int.xor]

/-- **The table for one variable** is right about every primitive that is not misread: of a value and
itself, what is not a comparison is zero. -/
theorem comparisonAlwaysTrueForSelf_eq_flag {n : Int} {datum : Datum platform.Floating}
    (hp : primitive ≠ .coreTypeIs) (hread : misreadOnSelf primitive = false)
    (hresult : applyPrimitive platform primitive valueType [.integer n, .integer n] = .result datum)
    (ht : truth platform datum = some flag) : comparisonAlwaysTrueForSelf primitive = flag := by
  have hcompare := comparison_eq_flag hp hresult ht
  rw [applyPrimitive, if_neg hp] at hresult
  have hinteger : applyInteger platform primitive valueType n n = .result datum := hresult
  have hzero : ∀ k, k = 0 → PrimitiveResult.result (.integer (wrapInteger valueType k))
      = PrimitiveResult.result datum → false = flag := by
    rintro k rfl h
    rw [wrapInteger_zero] at h
    cases h
    exact Option.some.inj ht
  cases primitive with
  | coreEqual => exact hcompare _ (by simp [evaluateIntegerComparison, comparisonAlwaysTrueForSelf])
  | coreNotEqual => exact hcompare _ (by simp [evaluateIntegerComparison, comparisonAlwaysTrueForSelf])
  | coreLessThan => exact hcompare _ (by simp [evaluateIntegerComparison, comparisonAlwaysTrueForSelf])
  | coreLessEqual => exact hcompare _ (by simp [evaluateIntegerComparison, comparisonAlwaysTrueForSelf])
  | coreGreaterThan => exact hcompare _ (by simp [evaluateIntegerComparison, comparisonAlwaysTrueForSelf])
  | coreGreaterEqual => exact hcompare _ (by simp [evaluateIntegerComparison, comparisonAlwaysTrueForSelf])
  | coreSubtract => exact hzero _ (Int.sub_self n) hinteger
  | coreBitwiseXor => exact hzero _ (xor_self n) hinteger
  | coreRemainder =>
      simp only [applyInteger] at hinteger
      split at hinteger
      · cases hinteger
      · exact hzero _ Int.tmod_self hinteger
  | coreShiftRight =>
      simp only [applyInteger] at hinteger
      split at hinteger
      · next hrange => exact hzero _ (shiftRight_self hrange.1) hinteger
      · cases hinteger
  | coreAdd | coreMultiply | coreDivide | coreFloorDivide | corePower | coreShiftLeft
  | coreBitwiseAnd | coreBitwiseOr => cases hread
  | _ => cases hinteger

theorem typeTest_subject {subject identity : Ty}
    (h : operandProblems .coreTypeIs [subject, identity] = []) : isReferenceLike subject = true := by
  simp only [operandProblems, if_true] at h
  split at h
  · next hreference => exact (Bool.and_eq_true_iff.mp hreference).1
  · cases h

/-- A type test has a reference on its left. -/
theorem not_integerVariable_of_typeTest
    (h : verifyExpression environment (.corePrimitive .coreTypeIs [left, right] valueType) = []) :
    integerVariable left = none := by
  obtain ⟨-, -, hproblems⟩ := verifyExpression_corePrimitive.mp h
  obtain ⟨-, hoperands, -⟩ := (primitiveProblems_eq_nil (by decide)).mp hproblems
  have hreference := not_integer_of_referenceLike (typeTest_subject hoperands)
  cases hshape : integerVariable left with
  | none => rfl
  | some entry =>
      obtain ⟨name, leftType⟩ := entry
      obtain ⟨rfl, hinteger⟩ := integerVariable_eq_some hshape
      rw [expressionType, hinteger] at hreference
      cases hreference

section Eager

variable (hp : primitive.isLogical = false) (hp' : primitive ≠ .coreRuntimeCall)
  (he : Evaluates platform functions environment (.corePrimitive primitive [left, right] valueType)
    locals value)

include hp hp' he

/-- What a test of two operands gives the comparison tables to go by. -/
theorem eager_comparison (ht : truth platform value.observe = some flag) :
    ∃ leftValue rightValue, Evaluates platform functions environment left locals leftValue ∧
      Evaluates platform functions environment right locals rightValue ∧
      ∀ n m, OperandIs locals left n → OperandIs locals right m →
        (∀ t, evaluateIntegerComparison primitive n m = some t → t = flag) ∧
        (n = m → integerVariable left ≠ none → misreadOnSelf primitive = false →
          comparisonAlwaysTrueForSelf primitive = flag) := by
  obtain ⟨leftValue, rightValue, datum, hleft, hright, hresult, rfl⟩ := he.binary_parts hp hp'
  refine ⟨leftValue, rightValue, hleft, hright, fun n m hn hm => ?_⟩
  cases hleft.eq_of_operandIs hn
  cases hright.eq_of_operandIs hm
  have ht' : truth platform datum = some flag := by cases datum <;> exact ht
  by_cases htest : primitive = .coreTypeIs
  · subst htest
    refine ⟨fun t h => (nomatch h), ?_⟩
    exact fun _ hvariable _ => absurd (not_integerVariable_of_typeTest he.accepted) hvariable
  · refine ⟨comparison_eq_flag htest hresult ht', ?_⟩
    rintro rfl - hread
    exact comparisonAlwaysTrueForSelf_eq_flag htest hread hresult ht'

theorem eager_refine (hd : facts.Describes locals) (hmeets : isSelfTest primitive left right = false)
    (ht : truth platform value.observe = some flag) :
    (refineComparison flag primitive left right facts).Describes locals := by
  obtain ⟨leftValue, rightValue, hleft, hright, hoperands⟩ := eager_comparison hp hp' he ht
  refine refineComparison_describes hleft hright hd (fun n m hn hm => (hoperands n m hn hm).1) ?_
  intro leftName leftType rightName rightType hl hr hsymbol
  obtain ⟨n, hn, hheld, -⟩ := hleft.operandIs_variable hl
  obtain ⟨m, hm, hheld', -⟩ := hright.operandIs_variable hr
  rw [← hsymbol, hheld] at hheld'
  cases hheld'
  refine (hoperands n n hn hm).2 rfl (by rw [hl]; simp) ?_
  simpa [isSelfTest, hl, hr, hsymbol] using hmeets

theorem eager_decides (hd : facts.Describes locals) (ht : truth platform value.observe = some flag)
    (hdecided : comparisonTruth facts primitive left right = some decided) : decided = flag := by
  obtain ⟨leftValue, rightValue, hleft, hright, hoperands⟩ := eager_comparison hp hp' he ht
  exact comparisonTruth_sound hleft hright hd (fun n m hn hm => (hoperands n m hn hm).1) hdecided

end Eager

theorem applyUnary_not {operandValue datum : Datum platform.Floating}
    (h : applyPrimitive platform .coreLogicalNot valueType [operandValue] = .result datum) :
    ∃ nested, truth platform operandValue = some nested ∧ datum = .boolean !nested := by
  simp only [applyPrimitive, applyUnary] at h
  split at h
  · next nested hnested =>
      cases h
      exact ⟨nested, hnested, rfl⟩
  · cases h

theorem analysesSound_coreLogicalNot (ih : AnalysesSound platform functions operand) :
    AnalysesSound platform functions (.corePrimitive .coreLogicalNot [operand] valueType) where
  transfer he hd _ := by
    obtain ⟨entries, rfl⟩ := hd.reachable
    exact describes_unlessInvokes hd _
  fact he _ _ hknown := by
    simp only [factOfIntegerExpression] at hknown
    split at hknown
    · next hinteger => cases (integer_primitive he.accepted hinteger).2.1
    · cases hknown
  refine he hd hmeets ht := by
    obtain ⟨entries, rfl⟩ := hd.reachable
    obtain ⟨operandValue, datum, hoperand, hresult, rfl⟩ := he.unary_parts (by decide) (by decide)
    obtain ⟨nested, hnested, rfl⟩ := applyUnary_not hresult
    cases ht
    have hedge := ih.refine hoperand hd hmeets hnested
    rw [← Bool.not_not nested] at hedge
    exact hedge
  decides he hd hmeets ht hdecided := by
    obtain ⟨operandValue, datum, hoperand, hresult, rfl⟩ := he.unary_parts (by decide) (by decide)
    obtain ⟨nested, hnested, rfl⟩ := applyUnary_not hresult
    cases ht
    rw [truthOfCondition] at hdecided
    obtain ⟨d, hd', rfl⟩ := Option.map_eq_some_iff.mp hdecided
    rw [ih.conditionTruth hoperand hd hmeets hnested hd']

theorem joinShortCircuit_describes {isAnd : Bool} {leftTruth : Option Bool}
    {afterLeft afterRight : IntegerFacts} (hdecided : ∀ d, leftTruth = some d → d = flag)
    (hleft : afterLeft.Describes locals) (hright : flag = isAnd → afterRight.Describes locals) :
    (joinShortCircuit isAnd leftTruth afterLeft afterRight).Describes locals := by
  unfold joinShortCircuit
  split
  · exact hleft
  · next hne =>
      cases leftTruth with
      | none => exact hleft.join_left _
      | some d =>
          refine hright ?_
          have hd := hdecided d rfl
          subst hd
          cases d <;> cases isAnd <;> simp at hne ⊢

theorem analysesSound_logical (stop : Bool) (hleft : AnalysesSound platform functions left)
    (hright : AnalysesSound platform functions right) :
    AnalysesSound platform functions (.corePrimitive (bif stop then .coreLogicalOr else .coreLogicalAnd)
      [left, right] valueType) where
  transfer he hd hmeets := by
    obtain ⟨entries, rfl⟩ := hd.reachable
    obtain ⟨leftValue, flag, hl, hflag, hrest⟩ := he.logical_parts
    cases stop
    all_goals
      simp only [cond_false, cond_true, meetsSelfTest, Bool.or_eq_false_iff] at hmeets
      have hafter := hleft.transfer hl hd hmeets.1.1
      refine joinShortCircuit_describes
        (fun d hdecided => hleft.conditionTruth hl hd hmeets.1.2 hflag hdecided) hafter ?_
      rintro rfl
      obtain ⟨rightValue, result, hr, -, -⟩ := hrest
      exact hright.transfer hr (hleft.refine hl hafter hmeets.1.2 hflag) hmeets.2
  fact he _ _ hknown := by
    simp only [factOfIntegerExpression] at hknown
    split at hknown
    · next hinteger =>
        have hlogical := (integer_primitive he.accepted hinteger).2.1
        cases stop <;> cases hlogical
    · cases hknown
  refine he hd hmeets ht := by
    obtain ⟨entries, rfl⟩ := hd.reachable
    obtain ⟨leftValue, flag, hl, hflag, hrest⟩ := he.logical_parts
    cases stop
    all_goals
      simp only [cond_false, cond_true, meetsSelfTest, Bool.or_eq_false_iff] at hmeets
      have hedge := hleft.refine hl hd hmeets.1 hflag
      cases flag
    case false.false | true.true =>
      cases hrest
      cases ht
      exact hedge.join_left _
    case false.true | true.false =>
      obtain ⟨rightValue, result, hr, hresult, rfl⟩ := hrest
      obtain rfl := Option.some.inj ht
      have hboth := hright.refine hr hedge hmeets.2 hresult
      cases result <;> first | exact hboth | exact hboth.join_right _
  decides he hd hmeets ht hdecided := by
    obtain ⟨leftValue, flag, hl, hflag, hrest⟩ := he.logical_parts
    cases stop
    all_goals
      simp only [cond_false, cond_true, meetsSelfTest, Bool.or_eq_false_iff] at hmeets
      simp only [cond_false, cond_true, truthOfCondition, Option.bind_eq_bind,
        Option.bind_eq_some_iff] at hdecided
      obtain ⟨leftTruth, hleftTruth, rightTruth, hrightTruth, hjoin⟩ := hdecided
      cases hjoin
      rw [hleft.conditionTruth hl hd hmeets.1 hflag hleftTruth]
      cases flag
    case false.refl.false | true.refl.true =>
      cases hrest
      cases ht
      rfl
    case false.refl.true | true.refl.false =>
      obtain ⟨rightValue, result, hr, hresult, rfl⟩ := hrest
      cases ht
      exact hright.conditionTruth hr hd hmeets.2 hresult hrightTruth

/-- The operands of arithmetic that does not wrap: the combined fact contains the result. -/
theorem combineIntegerFacts_contains {leftFact rightFact known : IntegerFact} {n m : Int}
    {datum : Datum platform.Floating}
    (hknown : combineIntegerFacts primitive valueType leftFact rightFact = some known)
    (hl : factContains leftFact n = true) (hr : factContains rightFact m = true)
    (hresult : applyBinary platform primitive valueType (.integer n) (.integer m) = .result datum) :
    ∃ k, datum = .integer k ∧ factContains known k = true := by
  have hexact : ∀ k, integerFitsCoreType valueType k = true ∧ factContains known k = true →
      PrimitiveResult.result (.integer (wrapInteger valueType k)) = PrimitiveResult.result datum →
      ∃ k, datum = .integer k ∧ factContains known k = true := by
    rintro k ⟨hfits, hcontains⟩ h
    rw [wrapInteger_eq hfits] at h
    cases h
    exact ⟨k, rfl, hcontains⟩
  cases primitive with
  | coreAdd =>
      obtain ⟨hfits, hcontains, -⟩ := intervalResult_contains unidirectional_add hknown hl hr
      exact hexact _ ⟨hfits, hcontains⟩ hresult
  | coreSubtract =>
      obtain ⟨hfits, hcontains, -⟩ := intervalResult_contains unidirectional_sub hknown hl hr
      exact hexact _ ⟨hfits, hcontains⟩ hresult
  | coreMultiply => exact hexact _ (multiplyResult_contains hknown hl hr) hresult
  | _ => cases hknown

theorem combineIntegerFacts_arithmetic {leftFact rightFact known : IntegerFact}
    (h : combineIntegerFacts primitive valueType leftFact rightFact = some known) :
    primitive = .coreAdd ∨ primitive = .coreSubtract ∨ primitive = .coreMultiply := by
  cases primitive <;> simp [combineIntegerFacts] at h ⊢

/-- The first operand of an accepted runtime call is a literal. -/
theorem runtimeCall_left
    (h : verifyExpression environment (.corePrimitive .coreRuntimeCall (left :: arguments) valueType) = []) :
    integerVariable left = none := by
  obtain ⟨-, -, hproblems⟩ := verifyExpression_corePrimitive.mp h
  obtain ⟨function, hnamed, -⟩ := runtimeCallDefect_eq_none.mp (runtimeCallProblems_eq_nil.mp hproblems)
  cases left with
  | coreVariable _ _ => cases hnamed
  | _ => rfl

theorem refineComparison_runtimeCall (hd : facts.Describes locals) (hleft : integerVariable left = none) :
    (refineComparison flag .coreRuntimeCall left right facts).Describes locals := by
  unfold refineComparison
  rw [hleft]
  cases integerVariable right <;> cases integerLiteral left <;> exact hd

theorem comparisonTruth_runtimeCall (facts : IntegerFacts) (left right : CoreExpression) :
    comparisonTruth facts .coreRuntimeCall left right ≠ some decided := by
  unfold comparisonTruth compareFacts
  intro h
  repeat' split at h
  all_goals exact nomatch h

/-- A primitive on one operand that is not a condition of its own. -/
theorem analysesSound_unary (hp : primitive ≠ .coreLogicalNot) (ih : AnalysesSound platform functions operand) :
    AnalysesSound platform functions (.corePrimitive primitive [operand] valueType) where
  transfer he hd _ := by
    obtain ⟨entries, rfl⟩ := hd.reachable
    cases primitive <;> exact describes_unlessInvokes hd _
  fact he hd hmeets hknown := by
    unfold factOfIntegerExpression at hknown
    split at hknown
    · next hinteger =>
        split at hknown
        · next nested hshape =>
            cases hshape
            obtain ⟨operandValue, datum, hoperand, hresult, rfl⟩ :=
              he.unary_parts (by decide) (by decide)
            obtain ⟨operandFact, hfact, rfl⟩ := Option.map_eq_some_iff.mp hknown
            simp only [meetsSelfTest, hinteger, Bool.true_and] at hmeets
            obtain ⟨n, rfl, hcontains⟩ := ih.fact hoperand hd hmeets hfact
            cases hresult
            exact ⟨_, rfl, negateFact_contains hcontains⟩
        · next hshape => cases hshape
        · cases hknown
    · cases hknown
  refine he hd _ _ := by
    obtain ⟨entries, rfl⟩ := hd.reachable
    cases primitive <;> first | exact absurd rfl hp | exact describes_unlessInvokes hd _
  decides he hd _ _ hdecided := by
    cases primitive <;> first | exact absurd rfl hp | cases hdecided

theorem analysesSound_binary (hp : primitive.isLogical = false) (hp' : primitive ≠ .coreRuntimeCall)
    (hleft : AnalysesSound platform functions left) (hright : AnalysesSound platform functions right) :
    AnalysesSound platform functions (.corePrimitive primitive [left, right] valueType) where
  transfer he hd _ := by
    obtain ⟨entries, rfl⟩ := hd.reachable
    cases primitive <;> first | exact absurd hp (by decide) | exact describes_unlessInvokes hd _
  fact he hd hmeets hknown := by
    simp only [factOfIntegerExpression] at hknown
    split at hknown
    · next hinteger =>
        have hmeets' : meetsSelfTest fact left = false ∧ meetsSelfTest fact right = false := by
          cases primitive <;> first
            | exact absurd hp (by decide)
            | simpa [meetsSelfTest, hinteger] using hmeets
        simp only [Option.bind_eq_bind, Option.bind_eq_some_iff] at hknown
        obtain ⟨leftFact, hleftFact, rightFact, hrightFact, hcombine⟩ := hknown
        obtain ⟨leftValue, rightValue, datum, hl, hr, hresult, rfl⟩ := he.binary_parts hp hp'
        obtain ⟨n, rfl, hn⟩ := hleft.fact hl hd hmeets'.1 hleftFact
        obtain ⟨m, rfl, hm⟩ := hright.fact hr hd hmeets'.2 hrightFact
        have harithmetic := combineIntegerFacts_arithmetic hcombine
        rw [applyPrimitive, if_neg (by rintro rfl; simp at harithmetic)] at hresult
        obtain ⟨k, rfl, hk⟩ := combineIntegerFacts_contains hcombine hn hm hresult
        exact ⟨k, rfl, hk⟩
    · cases hknown
  refine he hd hmeets ht := by
    have htest := fun h => eager_refine hp hp' he hd h ht
    obtain ⟨entries, rfl⟩ := hd.reachable
    cases primitive <;> first
      | exact absurd hp (by decide)
      | (simp only [refineConditionFacts]
         split
         · exact describes_empty _
         · exact htest hmeets)
  decides he hd _ ht hdecided := by
    cases primitive <;> first
      | exact absurd hp (by decide)
      | exact eager_decides hp hp' he hd ht hdecided

/-- Nothing is looked into, and nothing is decided, about a call of the runtime. -/
theorem analysesSound_coreRuntimeCall :
    AnalysesSound platform functions (.corePrimitive .coreRuntimeCall arguments valueType) where
  transfer he hd _ := by
    obtain ⟨entries, rfl⟩ := hd.reachable
    exact describes_unlessInvokes hd _
  fact he _ _ hknown := by
    unfold factOfIntegerExpression at hknown
    split at hknown
    · next hinteger => exact absurd rfl (integer_primitive he.accepted hinteger).1
    · cases hknown
  refine he hd _ _ := by
    obtain ⟨entries, rfl⟩ := hd.reachable
    unfold refineConditionFacts
    simp only
    split
    · contradiction
    · contradiction
    · contradiction
    · split
      · exact describes_empty _
      · exact refineComparison_runtimeCall hd (runtimeCall_left he.accepted)
    · exact describes_unlessInvokes hd _
  decides he _ _ _ hdecided := by
    unfold truthOfCondition at hdecided
    split at hdecided
    · contradiction
    · contradiction
    · contradiction
    · exact absurd hdecided (comparisonTruth_runtimeCall _ _ _)
    · cases hdecided

theorem analysesSound_corePrimitive (ih : ∀ argument ∈ arguments, AnalysesSound platform functions argument) :
    AnalysesSound platform functions (.corePrimitive primitive arguments valueType) := by
  by_cases hruntime : primitive = .coreRuntimeCall
  · subst hruntime
    exact analysesSound_coreRuntimeCall
  · -- an accepted primitive has one operand or two
    have haccepted : ∀ {environment : Environment} {locals : Locals platform.Floating}
        {value : Value platform.Floating},
        Evaluates platform functions environment (.corePrimitive primitive arguments valueType) locals
          value → arguments.length = primitive.arity := fun he =>
      ((primitiveProblems_eq_nil hruntime).mp (verifyExpression_corePrimitive.mp he.accepted).2.2).1
    have hmalformed : arguments.length ≠ primitive.arity →
        AnalysesSound platform functions (.corePrimitive primitive arguments valueType) := fun h =>
      { transfer := fun he => absurd (haccepted he) h
        fact := fun he => absurd (haccepted he) h
        refine := fun he => absurd (haccepted he) h
        decides := fun he => absurd (haccepted he) h }
    match arguments with
    | [operand] =>
        have hoperand := ih operand (by simp)
        by_cases hnot : primitive = .coreLogicalNot
        · subst hnot
          exact analysesSound_coreLogicalNot hoperand
        · exact analysesSound_unary hnot hoperand
    | [left, right] =>
        have hleft := ih left (by simp)
        have hright := ih right (by simp)
        by_cases hlogical : primitive.isLogical = true
        · cases primitive <;> first
            | exact absurd hlogical (by decide)
            | exact analysesSound_logical false hleft hright
            | exact analysesSound_logical true hleft hright
            | exact hmalformed (by simp [CorePrimitive.arity, CorePrimitive.isUnary])
        · exact analysesSound_binary (by simpa using hlogical) hruntime hleft hright
    | [] => exact hmalformed (by cases primitive <;> decide)
    | _ :: _ :: _ :: _ =>
        refine hmalformed ?_
        have harity : primitive.arity ≤ 2 := by cases primitive <;> decide
        simp only [List.length_cons]
        omega

/-- **Every analysis of every expression is sound** where it meets no test that it misreads. -/
theorem analysesSound (expression : CoreExpression) : AnalysesSound platform functions expression := by
  induction expression using CoreExpression.induct with
  | coreVariable name valueType => exact analysesSound_coreVariable
  | coreLiteral literal valueType => exact analysesSound_coreLiteral literal
  | coreApply callee arguments valueType _ _ => exact analysesSound_coreApply
  | corePrimitive primitive arguments valueType ih => exact analysesSound_corePrimitive ih
  | coreLet name bindingType operand body valueType ihOperand ihBody =>
      exact analysesSound_coreLet ihOperand ihBody
  | coreConditional condition whenTrue whenFalse valueType ihCondition ihTrue ihFalse =>
      exact analysesSound_coreConditional ihCondition ihTrue ihFalse
  | coreClosure captures parameters returnType statements valueType _ => exact analysesSound_coreClosure

end Soundness

/-! ## Conditions -/

/-- **Path facts are sound for a condition**: wherever it evaluates to a truth value without calls, in a
store its facts describe, the facts of that edge describe the store and a decided truth is that value. -/
def FactsSoundFor (condition : CoreExpression) : Prop :=
  ∀ (platform : Platform) (functions : List CoreFunction) (environment : Environment)
    (facts : IntegerFacts) (locals : Locals platform.Floating) (world world' : World platform.Floating)
    (value : Value platform.Floating) (flag : Bool),
    verifyExpression environment condition = [] →
    isConditionType (expressionType condition) = true →
    HoldsIntegers environment locals → facts.Describes locals →
    evaluate platform functions (noCalls platform) condition locals world = .done value world' →
    truth platform value.observe = some flag →
    (refineConditionFacts flag condition facts).Describes locals ∧
      ∀ decided, conditionTruthFromFacts facts condition = some decided → decided = flag

/-- Without calls an application has no value. -/
theorem evaluate_noCalls_ne_done {platform : Platform} {functions : List CoreFunction}
    {callee : CoreExpression} {arguments : List CoreExpression} {valueType : Ty}
    {locals : Locals platform.Floating} {world world' : World platform.Floating}
    {value : Value platform.Floating} :
    evaluate platform functions (noCalls platform) (.coreApply callee arguments valueType) locals world
      ≠ .done value world' := by
  intro he
  rw [evaluate] at he
  split at he
  · obtain ⟨_, _, -, he⟩ := Outcome.bind_eq_done.mp he
    cases he
  · obtain ⟨_, _, -, he⟩ := Outcome.bind_eq_done.mp he
    obtain ⟨_, _, -, he⟩ := Outcome.bind_eq_done.mp he
    cases he

/-- Integers in integer variables are a discipline of evaluations that call nothing. -/
def integerDiscipline (platform : Platform) (functions : List CoreFunction) :
    Discipline platform functions (noCalls platform) where
  holds environment locals _ := HoldsIntegers environment locals
  integers h := h
  call _ _ he := absurd he evaluate_noCalls_ne_done
  evaluated _ h _ := h
  bound symbol isMutable _ h _ hv := h.insert hv symbol isMutable
  assigned _ h _ hv hfind := h.assign hv hfind
  leaves hnone h := h.leave hnone

theorem factsSoundFor_of_meets {condition : CoreExpression}
    (hmeets : meetsSelfTest .refine condition = false) : FactsSoundFor condition := by
  intro platform functions environment facts locals world world' value flag haccepted _ htyped
    hdescribed hevaluates htruth
  have he : Evaluates platform functions environment condition locals value :=
    ⟨haccepted, noCalls platform, integerDiscipline platform functions, world, world', htyped, hevaluates⟩
  have hsound : AnalysesSound platform functions condition := analysesSound condition
  exact ⟨hsound.refine he hdescribed hmeets htruth,
    fun decided hdecided => hsound.conditionTruth he hdescribed hmeets htruth hdecided⟩

/-! ### The row that is wrong -/

/-- Small numbers are values of every integer type. -/
theorem integerFitsCoreType_small {valueType : Ty} (h : isCoreIntegerType valueType = true) {n : Int}
    (hlow : 0 ≤ n) (hhigh : n ≤ 2) : integerFitsCoreType valueType n = true := by
  obtain ⟨layout, hlayout⟩ := isCoreIntegerType_iff_layout.mp h
  have hmem : (coreTypeSpelling valueType, layout) ∈ integerLayouts := by
    obtain ⟨l₁, l₂, hl, -⟩ := List.lookup_eq_some_iff.mp hlayout
    simp [hl]
  have hall : ∀ row ∈ integerLayouts, layoutMinimum row.2 ≤ 0 ∧ 2 ≤ layoutMaximum row.2 := by decide
  have hrow := hall _ hmem
  rw [integerFitsCoreType_iff hlayout]
  exact ⟨Int.le_trans hrow.1 hlow, Int.le_trans hhigh hrow.2⟩

section Misread

variable {platform : Platform} {environment : Environment} {primitive : CorePrimitive}
  {leftName rightName : ResolvedName} {leftType rightType valueType : Ty}

/-- A misread primitive has the type of its operands. -/
theorem misread_type (hread : misreadOnSelf primitive = true) (hinteger : isCoreIntegerType leftType = true)
    (h : verifyExpression environment (.corePrimitive primitive
      [.coreVariable leftName leftType, .coreVariable rightName rightType] valueType) = []) :
    leftType = valueType := by
  obtain ⟨-, -, hproblems⟩ := verifyExpression_corePrimitive.mp h
  have hruntime : primitive ≠ .coreRuntimeCall := by
    rintro rfl
    cases hread
  obtain ⟨-, -, hresult⟩ := (primitiveProblems_eq_nil hruntime).mp hproblems
  have hfloating : isCoreFloatingType leftType = false := by
    cases hf : isCoreFloatingType leftType with
    | false => rfl
    | true =>
        rw [not_integer_of_floating hf] at hinteger
        cases hinteger
  cases primitive <;> first
    | exact absurd hread (by decide)
    | simpa [expectedResult, firstType, expressionType, hfloating, CorePrimitive.isLogical,
        CorePrimitive.isComparison] using hresult

/-- On one and one, a misread primitive is not zero. -/
theorem misread_one (hread : misreadOnSelf primitive = true) (hinteger : isCoreIntegerType valueType = true) :
    ∃ n, applyPrimitive platform primitive valueType [.integer 1, .integer 1] = .result (.integer n) ∧
      n ≠ 0 := by
  have hone : wrapInteger valueType 1 = 1 :=
    wrapInteger_eq (integerFitsCoreType_small hinteger (by decide) (by decide))
  have htwo : wrapInteger valueType 2 = 2 :=
    wrapInteger_eq (integerFitsCoreType_small hinteger (by decide) (by decide))
  obtain ⟨layout, hlayout⟩ := isCoreIntegerType_iff_layout.mp hinteger
  have hwidth : (1 : Int) < ((coreIntegerBitWidth valueType).getD 0 : Nat) := by
    have hmem : (coreTypeSpelling valueType, layout) ∈ integerLayouts := by
      obtain ⟨l₁, l₂, hl, -⟩ := List.lookup_eq_some_iff.mp hlayout
      simp [hl]
    have hall : ∀ row ∈ integerLayouts, 1 < row.2.2 := by decide
    simpa [coreIntegerBitWidth, hlayout] using hall _ hmem
  have hpower : integerPower valueType 1 1 = 1 := by simp [integerPower, hlayout]
  rw [applyPrimitive, if_neg (by rintro rfl; cases hread)]
  show ∃ n, applyInteger platform primitive valueType 1 1 = .result (.integer n) ∧ n ≠ 0
  have hresult : ∀ n k, wrapInteger valueType n = k → (PrimitiveResult.result (.integer
      (wrapInteger valueType n)) : PrimitiveResult platform.Floating) = .result (.integer k) := by
    rintro n k rfl
    rfl
  cases primitive with
  | coreAdd => exact ⟨2, hresult _ _ htwo, by decide⟩
  | coreMultiply => exact ⟨1, hresult _ _ hone, by decide⟩
  | coreDivide => exact ⟨1, hresult _ _ hone, by decide⟩
  | coreFloorDivide => exact ⟨1, hresult _ _ hone, by decide⟩
  | corePower =>
      refine ⟨1, ?_, by decide⟩
      simp only [applyInteger]
      rw [hpower, hone]
  | coreShiftLeft =>
      refine ⟨2, ?_, by decide⟩
      simp only [applyInteger]
      rw [if_pos ⟨by decide, hwidth⟩]
      exact hresult _ _ htwo
  | coreBitwiseAnd => exact ⟨1, hresult _ _ hone, by decide⟩
  | coreBitwiseOr => exact ⟨1, hresult _ _ hone, by decide⟩
  | _ => cases hread

end Misread

/-- A platform on which floating operations and texts are trivial. -/
def unitPlatform : Platform where
  Floating := Unit
  floatingLiteral _ _ := ()
  floatingOperation _ _ _ := ()
  floatingRounded _ _ := 0
  floatingCompare _ _ _ := false
  floatingTruth _ := false
  identical _ _ := false
  typeIs _ _ := false
  runtimeText _ _ := ""

/-- With one in every variable the test is true, and its true edge is said to be infeasible. -/
theorem not_factsSoundFor_misread {environment : Environment} {primitive : CorePrimitive}
    {leftName rightName : ResolvedName} {leftType rightType valueType : Ty}
    (hread : misreadOnSelf primitive = true) (hinteger : isCoreIntegerType leftType = true)
    (hinteger' : isCoreIntegerType rightType = true)
    (hsymbol : leftName.resolvedSymbol = rightName.resolvedSymbol)
    (h : verifyExpression environment (.corePrimitive primitive
      [.coreVariable leftName leftType, .coreVariable rightName rightType] valueType) = []) :
    ¬ FactsSoundFor (.corePrimitive primitive
      [.coreVariable leftName leftType, .coreVariable rightName rightType] valueType) := by
  intro hsound
  have htype := misread_type hread hinteger h
  have hone : ∃ n, applyPrimitive unitPlatform primitive valueType [.integer 1, .integer 1]
      = .result (.integer n) ∧ n ≠ 0 := misread_one hread (htype ▸ hinteger)
  obtain ⟨n, hresult, hn⟩ := hone
  let locals : Locals unitPlatform.Floating := fun _ => some (.integer 1)
  have htyped : HoldsIntegers environment locals := fun _ _ _ _ ht =>
    ⟨1, rfl, integerFitsCoreType_small ht (by decide) (by decide)⟩
  have hcondition : isConditionType valueType = true := by
    rw [isConditionType, isCoreNumericType_eq, ← htype, hinteger]
    simp
  have hevaluates : evaluate unitPlatform [] (noCalls unitPlatform) (.corePrimitive primitive
      [.coreVariable leftName leftType, .coreVariable rightName rightType] valueType) locals emptyWorld
      = .done (.integer n) emptyWorld := by
    have hfinish : finishPrimitive unitPlatform primitive valueType [.integer 1, .integer 1] emptyWorld
        = .done (.integer n) emptyWorld := finishPrimitive_eq_done.mpr ⟨_, hresult, rfl, rfl⟩
    rw [← hfinish]
    cases primitive <;> first | exact absurd hread (by decide) | rfl
  have hedge := (hsound unitPlatform [] environment emptyIntegerFacts locals emptyWorld emptyWorld
    (.integer n) true h hcondition htyped (describes_empty locals) hevaluates
    (by simp [Value.observe, truth, hn])).1
  have hinfeasible : refineConditionFacts true (.corePrimitive primitive
      [.coreVariable leftName leftType, .coreVariable rightName rightType] valueType)
      emptyIntegerFacts = unreachableFacts := by
    have hcompare : refineComparison true primitive (.coreVariable leftName leftType)
        (.coreVariable rightName rightType) emptyIntegerFacts = unreachableFacts := by
      simp only [refineComparison, integerVariable, hinteger, hinteger', if_true,
        refineVariableAgainstVariable, hsymbol]
      cases primitive <;> first | exact absurd hread (by decide) | rfl
    rw [← hcompare]
    cases primitive <;> first | exact absurd hread (by decide) | rfl
  rw [hinfeasible] at hedge
  exact hedge

/-- The variable `x` of type `int`. -/
def sampleVariable : CoreExpression := .coreVariable ⟨1, "x"⟩ intType

/-- `x + x` in condition position, as the truth of a number. -/
def doubledCondition : CoreExpression :=
  .corePrimitive .coreAdd [sampleVariable, sampleVariable] intType

/-- `x > 0 && !(x - x)`. -/
def guardedCondition : CoreExpression :=
  .corePrimitive .coreLogicalAnd
    [.corePrimitive .coreGreaterThan [sampleVariable, .coreLiteral (.coreInteger 0) intType] boolType,
      .corePrimitive .coreLogicalNot
        [.corePrimitive .coreSubtract [sampleVariable, sampleVariable] intType] boolType] boolType

end Tala.Core.Optimizer
