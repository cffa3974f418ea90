import Tala.Core.Optimizer.FactSoundness
import Tala.Core.Optimizer.IntegerFolding

/-!
# `Core.Optimizer.FoldingSoundness` — a folded integer primitive runs as it did

Wherever the types of an environment hold, the replacement of an integer primitive has the outcome of the
primitive: the same value in the same world, or the same way to stop (`foldPrimitive_evaluates`).
-/

namespace Tala.Core.Optimizer.IntegerFolding

open Tala Tala.Core Tala.Library Tala.Core.Optimizer.Floating

variable {platform : Platform} {functions : List CoreFunction} {invoke : Invoke platform}
  {environment : Environment} {locals : Locals platform.Floating} {world : World platform.Floating}
  {primitive : CorePrimitive} {arguments : List CoreExpression} {valueType : Ty}

/-! ## Literals -/

theorem eq_literal {expression : CoreExpression} {n : Int} (h : integerLiteral expression = some n) :
    expression = .coreLiteral (.coreInteger n) (expressionType expression) := by
  unfold integerLiteral at h
  split at h <;> cases h
  rfl

theorem eq_integerLiterals {operands : List Int}
    (htypes : ∀ argument ∈ arguments, expressionType argument = valueType)
    (h : arguments.mapM integerLiteral = some operands) : arguments = integerLiterals valueType operands := by
  induction arguments generalizing operands with
  | nil =>
      cases h
      rfl
  | cons first rest ih =>
      rw [List.mapM_cons] at h
      obtain ⟨n, hn, h⟩ := Option.bind_eq_some_iff.mp h
      obtain ⟨others, hothers, h⟩ := Option.bind_eq_some_iff.mp h
      cases h
      rw [List.forall_mem_cons] at htypes
      rw [eq_literal hn, htypes.1, ih htypes.2 hothers]
      rfl

theorem evaluateMany_literals (operands : List Int) :
    evaluateMany platform functions invoke (integerLiterals valueType operands) locals world
      = .done (operands.map .integer) world := by
  induction operands with
  | nil => rfl
  | cons n rest ih =>
      show Outcome.bind (evaluateMany _ _ invoke (integerLiterals valueType rest) locals world) _ = _
      rw [ih]
      rfl

theorem applyPrimitive_integers (hidentity : primitive ≠ .coreTypeIs) (a b : Int) :
    applyPrimitive platform primitive valueType [.integer a, .integer b]
      = applyInteger platform primitive valueType a b := by
  rw [applyPrimitive, if_neg hidentity]
  rfl

/-- What a primitive denotes is what it makes of its operands. -/
theorem applyPrimitive_denotes {layout : Bool × Nat} (hlayout : integerLayout? valueType = some layout)
    {operands : List Int} (hoperands : ∀ value ∈ operands, integerFitsCoreType valueType value = true)
    {result : Int} (h : Denotes layout primitive operands result)
    (hfits : integerFitsCoreType valueType result = true) :
    applyPrimitive platform primitive valueType (operands.map .integer) = .result (.integer result) := by
  have hwrap : wrapInteger valueType result = result := wrapInteger_eq hfits
  rcases operands with _ | ⟨a, _ | ⟨b, _ | ⟨c, rest⟩⟩⟩
  · cases primitive <;> cases h
  · have ha := (integerFitsCoreType_iff hlayout).mp (hoperands a List.mem_cons_self)
    cases primitive <;> first | cases h | skip
    case coreNegate =>
      have hresult : result + a = 0 := h
      show PrimitiveResult.result (.integer (wrapInteger valueType (-a))) = _
      rw [show -a = result by omega, hwrap]
    case coreBitwiseNot =>
      have hsum : result + a = if layout.1 then -1 else 2 ^ layout.2 - 1 := h
      show PrimitiveResult.result (.integer (wrapInteger valueType (-a - 1))) = _
      cases hsigned : layout.1 with
      | true =>
          rw [hsigned, if_pos rfl] at hsum
          rw [show -a - 1 = result by omega, hwrap]
      | false =>
          -- the complement of an unsigned value is negative before it wraps
          simp only [layoutMinimum, layoutMaximum, layoutMagnitude, hsigned, Bool.false_eq_true, if_false,
            Nat.sub_zero] at ha hsum
          simp only [wrapInteger, hlayout, layoutSpan, layoutMinimum, layoutMaximum, layoutMagnitude, hsigned,
            Bool.false_eq_true, if_false, Nat.sub_zero, Int.sub_zero, Int.zero_add, Int.sub_add_cancel]
          rw [← Int.add_emod_right, Int.emod_eq_of_lt (by omega) (by omega),
            show -a - 1 + 2 ^ layout.2 = result by omega]
  · cases primitive <;> first | (cases h; done) | skip
    all_goals rw [List.map_cons, List.map_cons, List.map_nil, applyPrimitive_integers (by decide)]
    case coreAdd | coreSubtract | coreMultiply =>
      obtain rfl := h
      simp only [applyInteger, hwrap]
    case coreDivide =>
      obtain ⟨remainder, h⟩ := h
      obtain ⟨hb, rfl, -⟩ := truncatedDivision_iff.mp h
      simp only [applyInteger, if_neg hb, hwrap]
    case coreFloorDivide =>
      obtain ⟨hb, rfl⟩ := nearestQuotient_iff.mp h
      simp only [applyInteger, if_neg hb, hwrap]
    case coreRemainder =>
      obtain ⟨quotient, h⟩ := h
      obtain ⟨hb, -, rfl⟩ := truncatedDivision_iff.mp h
      simp only [applyInteger, if_neg hb, hwrap]
    case corePower =>
      obtain ⟨hlow, rfl⟩ := h
      have hb := (integerFitsCoreType_iff hlayout).mp (hoperands b (by simp))
      have hmod : b % layoutSpan layout = b := by
        have := layoutMinimum_nonpos layout
        exact Int.emod_eq_of_lt hlow (by unfold layoutSpan; omega)
      simp only [applyInteger, integerPower, hlayout, hmod, hwrap]
    case coreShiftLeft =>
      obtain ⟨hlow, hhigh, rfl⟩ := h
      rw [← Int.shiftLeft_eq] at hwrap ⊢
      simp only [applyInteger, coreIntegerBitWidth, hlayout, hwrap]
      exact if_pos ⟨hlow, hhigh⟩
    case coreShiftRight =>
      obtain ⟨hlow, hhigh, h⟩ := h
      obtain rfl := shiftRight_iff.mp h
      simp only [applyInteger, coreIntegerBitWidth, hlayout, hwrap]
      exact if_pos ⟨hlow, hhigh⟩
    case coreBitwiseAnd =>
      obtain rfl := land_iff.mp h
      simp only [applyInteger, hwrap]
    case coreBitwiseXor =>
      obtain rfl := xor_iff.mp h
      simp only [applyInteger, hwrap]
    case coreBitwiseOr =>
      obtain rfl := lor_iff.mp h
      simp only [applyInteger, hwrap]
  · cases primitive <;> cases h

/-! ## Identities -/

/-- The least value of a signed type is its own negation. -/
theorem wrapInteger_neg_neg {n : Int} (hfits : integerFitsCoreType valueType n = true) :
    wrapInteger valueType (-wrapInteger valueType (-n)) = n := by
  refine Eq.trans ?_ (wrapInteger_eq hfits)
  unfold wrapInteger
  cases integerLayout? valueType with
  | none => exact Int.neg_neg n
  | some layout =>
      dsimp only
      generalize layoutMinimum layout = low, layoutSpan layout = span
      rw [Int.emod_def (-n - low), ← Int.add_mul_emod_self_left (n - low) span ((-n - low) / span)]
      congr 2
      omega

theorem bind_eq_self {α : Type} {outcome : Run platform α}
    {next : α → World platform.Floating → Run platform α}
    (h : ∀ value world, outcome = .done value world → next value world = .done value world) :
    outcome.bind next = outcome := by
  cases outcome with
  | done value world => exact h value world rfl
  | _ => rfl

/-- An accepted expression of an integer type evaluates to an integer of the type. -/
theorem integer_evaluated (discipline : Discipline platform functions invoke)
    (hholds : discipline.holds environment locals world) (ht : isCoreIntegerType valueType = true)
    {expression : CoreExpression} (haccepted : verifyExpression environment expression = [])
    (htype : expressionType expression = valueType) {value : Value platform.Floating}
    {world' : World platform.Floating}
    (h : evaluate platform functions invoke expression locals world = .done value world') :
    ∃ n, value = .integer n ∧ integerFitsCoreType valueType n = true := by
  subst htype
  exact integerResult expression ⟨haccepted, invoke, discipline, world, world', hholds, h⟩ ht

section Primitive

variable (discipline : Discipline platform functions invoke)
  (hholds : discipline.holds environment locals world) (ht : isCoreIntegerType valueType = true)
  (haccepted : verifyExpression environment (.corePrimitive primitive arguments valueType) = [])
  (htypes : ∀ argument ∈ arguments, expressionType argument = valueType)

include haccepted

theorem operand_accepted {argument : CoreExpression} (hmem : argument ∈ arguments) :
    verifyExpression environment argument = [] :=
  verifyExpressions_forall.mp (verifyExpression_corePrimitive.mp haccepted).2.1 argument hmem

include ht

/-- An integer primitive evaluates its operands first. -/
theorem evaluate_primitive :
    evaluate platform functions invoke (.corePrimitive primitive arguments valueType) locals world
      = (evaluateMany platform functions invoke arguments locals world).bind
          (finishPrimitive platform primitive valueType) := by
  obtain ⟨hruntime, hlogical, -, -, hmemoize, -⟩ := integer_primitive haccepted ht
  cases primitive <;>
    first | rfl | exact absurd rfl hruntime | exact absurd rfl hmemoize | cases hlogical

include htypes

theorem evaluatePrimitive_evaluates {folded : CoreExpression}
    (h : evaluatePrimitive primitive arguments valueType = some folded) :
    evaluate platform functions invoke folded locals world
      = evaluate platform functions invoke (.corePrimitive primitive arguments valueType) locals world := by
  obtain ⟨layout, hlayout⟩ := isCoreIntegerType_iff_layout.mp ht
  obtain ⟨hruntime, hlogical, hcomparison, hidentity, hmemoize, -⟩ := integer_primitive haccepted ht
  have hprimitive : isIntegerPrimitive primitive = true := by
    cases primitive <;>
      first
      | rfl
      | exact absurd rfl hruntime
      | exact absurd rfl hidentity
      | exact absurd rfl hmemoize
      | exact absurd (hlogical.trans hcomparison.symm) (by decide)
  cases hoperands : arguments.mapM integerLiteral with
  | none =>
      unfold evaluatePrimitive evaluateBoolean at h
      rw [hoperands, foldFloatingPrimitive_typed hlayout primitive htypes] at h
      cases primitive <;> first | exact absurd hprimitive (by decide) | cases h
  | some operands =>
      obtain rfl := eq_integerLiterals htypes hoperands
      have hfits : ∀ value ∈ operands, integerFitsCoreType valueType value = true := by
        intro value hvalue
        exact (verifyExpression_coreLiteral.mp (operand_accepted haccepted (List.mem_map_of_mem hvalue))).2
      obtain ⟨result, hresult, hresultFits, rfl⟩ := (evaluatePrimitive_folds hlayout hprimitive hfits _).mp h
      rw [evaluate_primitive ht haccepted, evaluateMany_literals, Outcome.bind_done, finishPrimitive, List.map_map,
        show Value.observe ∘ Value.integer = (.integer : Int → Datum platform.Floating) from rfl,
        applyPrimitive_denotes hlayout hfits hresult hresultFits]
      rfl

include hholds

/-- An operation with a literal on one side that leaves every integer of the type as it is. -/
theorem evaluate_kept {literal kept : CoreExpression} {m : Int} (hliteral : isIntegerLiteral m literal = true)
    (hkeeps : (arguments = [kept, literal] ∧ ∀ n, wrapInteger valueType n = n →
        applyInteger platform primitive valueType n m = .result (.integer n)) ∨
      arguments = [literal, kept] ∧ ∀ n, wrapInteger valueType n = n →
        applyInteger platform primitive valueType m n = .result (.integer n)) :
    evaluate platform functions invoke kept locals world
      = evaluate platform functions invoke (.corePrimitive primitive arguments valueType) locals world := by
  have hoperand : kept ∈ arguments := by
    rcases hkeeps with ⟨rfl, -⟩ | ⟨rfl, -⟩ <;> simp
  have haccepts := operand_accepted haccepted hoperand
  have hidentity := (integer_primitive haccepted ht).2.2.2.1
  rw [evaluate_primitive ht haccepted]
  rcases hkeeps with ⟨rfl, hkeeps⟩ | ⟨rfl, hkeeps⟩
  all_goals
    rw [eq_literal (of_decide_eq_true hliteral)]
    simp only [evaluateMany, evaluate, literalValue, Outcome.bind_assoc, Outcome.bind_done]
    refine (bind_eq_self fun value world' hvalue => ?_).symm
    obtain ⟨n, rfl, hfits⟩ := integer_evaluated discipline hholds ht haccepts (htypes kept hoperand) hvalue
    refine finishPrimitive_eq_done.mpr ⟨.integer n, ?_, rfl, rfl⟩
    exact (applyPrimitive_integers hidentity _ _).trans (hkeeps n (wrapInteger_eq hfits))

/-- A variable or a literal has its value without changing the world. -/
theorem evaluate_simple {value : CoreExpression} (hmem : value ∈ arguments) (hsimple : isSimpleValue value = true) :
    ∃ n, evaluate platform functions invoke value locals world = .done (.integer n) world := by
  have hoperand := operand_accepted haccepted hmem
  cases value with
  | coreVariable name type =>
      obtain ⟨-, -, _, hfind⟩ := verifyExpression_coreVariable.mp hoperand
      rw [← htypes _ hmem] at ht
      obtain ⟨n, hn, -⟩ := discipline.integers hholds _ _ _ hfind ht
      exact ⟨n, by simp only [evaluate, readName, hn]⟩
  | coreLiteral literal type =>
      obtain ⟨n, hn, -⟩ := integer_evaluated discipline hholds ht hoperand (htypes _ hmem) rfl
      exact ⟨n, by rw [evaluate, hn]⟩
  | _ => cases hsimple

theorem simplifyIdentity_evaluates :
    evaluate platform functions invoke (simplifyIdentity primitive arguments valueType) locals world
      = evaluate platform functions invoke (.corePrimitive primitive arguments valueType) locals world := by
  have kept {literal operand} m hliteral hkeeps := @evaluate_kept platform functions invoke environment locals
    world primitive arguments valueType discipline hholds ht haccepted htypes literal operand m hliteral hkeeps
  have hone (n : Int) : roundedIntegerDivision n 1 = n :=
    (nearestQuotient_iff.mp ⟨one_ne_zero, by simp, by simp⟩).2.symm
  unfold simplifyIdentity
  split
  · split
    next hzero => exact kept _ hzero (.inl ⟨rfl, fun n hn => by simp [applyInteger, hn]⟩)
    split
    next hzero => exact kept _ hzero (.inr ⟨rfl, fun n hn => by simp [applyInteger, hn]⟩)
    rfl
  · split
    next hzero => exact kept _ hzero (.inl ⟨rfl, fun n hn => by simp [applyInteger, hn]⟩)
    rfl
  · split
    next hone => exact kept _ hone (.inl ⟨rfl, fun n hn => by simp [applyInteger, hn]⟩)
    split
    next hone => exact kept _ hone (.inr ⟨rfl, fun n hn => by simp [applyInteger, hn]⟩)
    rfl
  · split
    next hone => exact kept _ hone (.inl ⟨rfl, fun n hn => by simp [applyInteger, hn]⟩)
    rfl
  · split
    next h => exact kept _ h.1 (.inl ⟨rfl, fun n hn => by simp [applyInteger, hone, hn]⟩)
    rfl
  · split
    next value one h =>
      -- the operand has no effects to keep
      obtain ⟨n, hvalue⟩ := evaluate_simple discipline hholds ht haccepted htypes List.mem_cons_self h.2
      rw [evaluate_primitive ht haccepted, eq_literal (of_decide_eq_true h.1)]
      simp only [evaluateMany, evaluate, literalValue, hvalue, Outcome.bind_done]
      refine (finishPrimitive_eq_done.mpr ⟨.integer 0, ?_, rfl, rfl⟩).symm
      refine (applyPrimitive_integers (by decide) n 1).trans ?_
      simp [applyInteger, wrapInteger_zero]
    rfl
  · split
    next value innerType heq =>
      subst heq
      have hinner := operand_accepted haccepted List.mem_cons_self
      have hvalue := operand_accepted hinner List.mem_cons_self
      have htype := (integer_primitive hinner ht).2.2.2.2.2.2 (by decide)
      simp only [evaluate_primitive ht haccepted, evaluate_primitive ht hinner, evaluateMany, Outcome.bind_assoc,
        Outcome.bind_done]
      refine (bind_eq_self fun result world' hresult => ?_).symm
      obtain ⟨n, rfl, hfits⟩ := integer_evaluated discipline hholds ht hvalue htype hresult
      show Outcome.done (Value.integer (wrapInteger _ (-wrapInteger _ (-n)))) world' = _
      rw [wrapInteger_neg_neg hfits]
    rfl
  · cases (integer_primitive haccepted ht).2.1
  · rfl

end Primitive

/-- **Folding an integer primitive preserves its meaning.** Where the stores have the types of the environment,
the replacement of an accepted primitive ends in the same value and world as the primitive, and stops or runs
out of its budget where that does. Only floor division of floating-point numbers is accepted with operands of
another type than its own. -/
theorem foldPrimitive_evaluates (discipline : Discipline platform functions invoke)
    (hholds : discipline.holds environment locals world) (ht : isCoreIntegerType valueType = true)
    (haccepted : verifyExpression environment (.corePrimitive primitive arguments valueType) = [])
    (htypes : ∀ argument ∈ arguments, expressionType argument = valueType) :
    evaluate platform functions invoke (foldPrimitive primitive arguments valueType) locals world
      = evaluate platform functions invoke (.corePrimitive primitive arguments valueType) locals world := by
  unfold foldPrimitive
  split
  · next folded hfolded => exact evaluatePrimitive_evaluates ht haccepted htypes hfolded
  · exact simplifyIdentity_evaluates discipline hholds ht haccepted htypes

/-- `-(-2147483648)`, which wraps to the least `int` again. -/
theorem foldPrimitive_evaluates_least :
    let least : CoreExpression := .coreLiteral (.coreInteger (-2 ^ 31)) intType
    let negated : CoreExpression := .corePrimitive .coreNegate [least] intType
    evaluate unitPlatform [] (noCalls unitPlatform) (foldPrimitive .coreNegate [negated] intType) (fun _ => none)
        emptyWorld
      = evaluate unitPlatform [] (noCalls unitPlatform) (.corePrimitive .coreNegate [negated] intType)
        (fun _ => none) emptyWorld :=
  foldPrimitive_evaluates (integerDiscipline unitPlatform [])
    (fun _ _ _ (hfind : (SortedMap.ofList []).find _ = _) => nomatch hfind) (by decide) (by decide) (by decide)

end Tala.Core.Optimizer.IntegerFolding
