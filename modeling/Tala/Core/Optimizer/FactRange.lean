import Tala.Core.Optimizer.IntegerFacts
import Tala.Core.Semantics

/-!
# `Core.Optimizer.FactRange` — what facts say of values and stores

`factContains` is the meaning of a fact, `IntegerFacts.Describes` that of the facts at a program point.
Every operation on facts gets one lemma: the fact it returns contains the values it has to contain, and
the facts it returns describe the store they have to describe.
-/

namespace Tala.Core.Optimizer

open Tala Tala.Core Tala.Library IntegerFacts IntegerConstraint

/-! ## One fact -/

section OneFact

variable {fact left right common : IntegerFact} {value other : Int} {valueType : Ty}

theorem factContains_iff : factContains fact value = true ↔
    (∀ lower, fact.integerMinimum = some lower → lower ≤ value) ∧
      (∀ upper, fact.integerMaximum = some upper → value ≤ upper) ∧
      (fact.integerExcludesZero = true → value ≠ 0) := by
  obtain ⟨minimum, maximum, excludes⟩ := fact
  cases minimum <;> cases maximum <;> cases excludes <;> simp [factContains, and_assoc]

theorem unknownFact_contains (value : Int) : factContains unknownFact value = true := by
  simp [factContains, unknownFact]

theorem exactFact_contains (value : Int) : factContains (exactFact value) value = true := by
  simp [factContains, exactFact]

/-- The ends of `typeRange` are those of the layout. -/
theorem typeRange_contains (h : integerFitsCoreType valueType value = true) :
    factContains (typeRange valueType) value = true := by
  unfold integerFitsCoreType at h
  unfold typeRange coreIntegerBitWidth coreIntegerIsSigned
  cases hl : integerLayout? valueType with
  | none => exact unknownFact_contains value
  | some layout =>
      obtain ⟨signed, width⟩ := layout
      rw [hl] at h
      cases signed <;>
        simpa [factContains, layoutMinimum, layoutMaximum, layoutMagnitude] using h

theorem impossibleFact_of_contains (h : factContains fact value = true) : impossibleFact fact = false := by
  obtain ⟨minimum, maximum, excludes⟩ := fact
  rw [factContains_iff] at h
  cases minimum <;> cases maximum <;> cases excludes <;>
    simp [impossibleFact, factIsZero, factIsExact] at h ⊢ <;> grind

theorem eq_of_factIsExact (h : factContains fact value = true) (he : factIsExact fact = some other) :
    value = other := by
  rw [factContains_iff] at h
  unfold factIsExact at he
  split at he
  · next lower upper hlower hupper =>
      split at he
      · cases he
        have := h.1 _ hlower
        have := h.2.1 _ hupper
        omega
      · cases he
  · cases he

theorem eq_zero_of_factIsZero (h : factContains fact value = true) (hz : factIsZero fact = true) :
    value = 0 := eq_of_factIsExact h (by simpa [factIsZero] using hz)

theorem ne_zero_of_factProvesNonzero (h : factContains fact value = true)
    (hn : factProvesNonzero fact = true) : value ≠ 0 := by
  rw [factContains_iff] at h
  simp only [factProvesNonzero, Bool.or_eq_true, Option.any_eq_true] at hn
  rcases hn with (hn | ⟨lower, hl, hn⟩) | ⟨upper, hu, hn⟩
  · exact h.2.2 hn
  · have := h.1 _ hl
    simp at hn
    omega
  · have := h.2.1 _ hu
    simp at hn
    omega

theorem factTruth_sound {truth : Bool} (h : factContains fact value = true)
    (ht : factTruth fact = some truth) : truth = decide (value ≠ 0) := by
  unfold factTruth at ht
  split at ht
  · next hz => cases ht; simp [eq_zero_of_factIsZero h hz]
  · split at ht
    · next hn => cases ht; simp [ne_zero_of_factProvesNonzero h hn]
    · cases ht

variable {b b' : Option Int}

theorem hullBound_le_left {l : Int} (h : ∀ x, b = some x → x ≤ value)
    (hl : hullBound min b b' = some l) : l ≤ value := by
  cases b <;> cases b' <;> simp [hullBound] at hl h
  omega

theorem hullBound_le_right {l : Int} (h : ∀ x, b' = some x → x ≤ value)
    (hl : hullBound min b b' = some l) : l ≤ value := by
  cases b <;> cases b' <;> simp [hullBound] at hl h
  omega

theorem le_hullBound_left {u : Int} (h : ∀ x, b = some x → value ≤ x)
    (hu : hullBound max b b' = some u) : value ≤ u := by
  cases b <;> cases b' <;> simp [hullBound] at hu h
  omega

theorem le_hullBound_right {u : Int} (h : ∀ x, b' = some x → value ≤ x)
    (hu : hullBound max b b' = some u) : value ≤ u := by
  cases b <;> cases b' <;> simp [hullBound] at hu h
  omega

theorem joinFact_contains_left (h : factContains left value = true) :
    factContains (joinFact left right) value = true := by
  have hn := ne_zero_of_factProvesNonzero h
  rw [factContains_iff] at h ⊢
  refine ⟨fun l hl => hullBound_le_left h.1 hl, fun u hu => le_hullBound_left h.2.1 hu, fun he => ?_⟩
  exact hn (Bool.and_eq_true_iff.mp he).1

theorem joinFact_contains_right (h : factContains right value = true) :
    factContains (joinFact left right) value = true := by
  have hn := ne_zero_of_factProvesNonzero h
  rw [factContains_iff] at h ⊢
  refine ⟨fun l hl => hullBound_le_right h.1 hl, fun u hu => le_hullBound_right h.2.1 hu, fun he => ?_⟩
  exact hn (Bool.and_eq_true_iff.mp he).2

/-- A value both facts contain is in their intersection. -/
theorem intersectFacts_contains (hl : factContains left value = true) (hr : factContains right value = true) :
    ∃ common, intersectFacts left right = some common ∧ factContains common value = true := by
  have h : factContains ⟨tighterBound max left.integerMinimum right.integerMinimum,
      tighterBound min left.integerMaximum right.integerMaximum,
      left.integerExcludesZero || right.integerExcludesZero⟩ value = true := by
    rw [factContains_iff] at hl hr ⊢
    obtain ⟨minimum, maximum, excludes⟩ := left
    obtain ⟨minimum', maximum', excludes'⟩ := right
    refine ⟨?_, ?_, ?_⟩
    · cases minimum <;> cases minimum' <;> simp [tighterBound] at hl hr ⊢ <;> omega
    · cases maximum <;> cases maximum' <;> simp [tighterBound] at hl hr ⊢ <;> omega
    · simp only [Bool.or_eq_true]
      rintro (he | he)
      · exact hl.2.2 he
      · exact hr.2.2 he
  refine ⟨_, ?_, h⟩
  unfold intersectFacts
  rw [if_neg (by rw [impossibleFact_of_contains h]; simp)]

/-! ### Arithmetic -/

/-- An interval that was checked contains what lies between its ends, and none of that wraps. -/
theorem checkedInterval_contains {lower upper : Int}
    (h : checkedInterval valueType lower upper = some fact) (hl : lower ≤ value) (hu : value ≤ upper) :
    integerFitsCoreType valueType value = true ∧ factContains fact value = true ∧
      fact.integerMinimum = some lower ∧ fact.integerMaximum = some upper := by
  unfold checkedInterval at h
  split at h
  · cases h
  · next hfits =>
      cases h
      simp only [Bool.not_eq_true', Bool.not_eq_false, Bool.and_eq_true] at hfits
      refine ⟨?_, ?_, rfl, rfl⟩
      · obtain ⟨layout, hlayout⟩ : ∃ layout, integerLayout? valueType = some layout := by
          cases hlayout : integerLayout? valueType with
          | none => simp [integerFitsCoreType, hlayout] at hfits
          | some layout => exact ⟨layout, rfl⟩
        simp only [integerFitsCoreType_iff hlayout] at hfits ⊢
        omega
      · simp [factContains_iff]
        omega

theorem intervalResult_contains {operation : Int → Int → Int} (ho : Unidirectional operation)
    (h : intervalResult valueType operation left right = some fact)
    (hl : factContains left value = true) (hr : factContains right other = true) :
    integerFitsCoreType valueType (operation value other) = true ∧
      factContains fact (operation value other) = true ∧
      ∃ lower upper, lower ≤ operation value other ∧ operation value other ≤ upper ∧
        fact.integerMinimum = some lower ∧ fact.integerMaximum = some upper := by
  simp only [intervalResult, Option.bind_eq_bind, Option.bind_eq_some_iff] at h
  obtain ⟨lowerLeft, h₁, upperLeft, h₂, lowerRight, h₃, upperRight, h₄, h⟩ := h
  rw [factContains_iff] at hl hr
  obtain ⟨hmin, hmax⟩ :=
    ho.corner_bounds (hl.1 _ h₁) (hl.2.1 _ h₂) (hr.1 _ h₃) (hr.2.1 _ h₄)
  obtain ⟨hfits, hcontains, hlower, hupper⟩ := checkedInterval_contains h hmin hmax
  exact ⟨hfits, hcontains, _, _, hmin, hmax, hlower, hupper⟩

theorem multiplyResult_contains (h : multiplyResult valueType left right = some fact)
    (hl : factContains left value = true) (hr : factContains right other = true) :
    integerFitsCoreType valueType (value * other) = true ∧ factContains fact (value * other) = true := by
  simp only [multiplyResult, Option.map_eq_some_iff] at h
  obtain ⟨result, h, rfl⟩ := h
  obtain ⟨hfits, -, lower, upper, hlo, hhi, hlower, hupper⟩ :=
    intervalResult_contains unidirectional_mul h hl hr
  refine ⟨hfits, ?_⟩
  simp only [factContains_iff, hlower, hupper, Option.some.injEq, forall_eq', Bool.and_eq_true]
  refine ⟨hlo, hhi, ?_⟩
  rintro ⟨hl', hr'⟩
  exact Int.mul_ne_zero (ne_zero_of_factProvesNonzero hl hl') (ne_zero_of_factProvesNonzero hr hr')

/-- The negative of a value lies in the negated fact, at the width of the type. -/
theorem negateFact_contains (h : factContains fact value = true) :
    factContains (negateFact valueType fact) (wrapInteger valueType (-value)) = true := by
  unfold negateFact
  split
  · next upper lower hupper hlower =>
      split
      · next hfits =>
          rw [Bool.and_eq_true] at hfits
          have hbounds := factContains_iff.mp h
          have hlo := hbounds.1 _ hlower
          have hhi := hbounds.2.1 _ hupper
          have hcheck : checkedInterval valueType (-upper) (-lower)
              = some ⟨some (-upper), some (-lower), -upper > 0 || -lower < 0⟩ := by
            simp [checkedInterval, hfits]
          obtain ⟨hfit, -⟩ := checkedInterval_contains hcheck (by omega : -upper ≤ -value) (by omega)
          rw [wrapInteger_eq hfit]
          simp only [factContains_iff, Option.some.injEq, forall_eq', Bool.or_eq_true,
            decide_eq_true_eq]
          refine ⟨by omega, by omega, ?_⟩
          rintro ((he | he) | he)
          · have := hbounds.2.2 he
            omega
          · omega
          · omega
      · exact unknownFact_contains _
  · exact unknownFact_contains _

end OneFact

/-! ## Comparisons of values -/

/-- The value satisfies the constraint. -/
def IntegerConstraint.Holds (value : Int) : IntegerConstraint → Prop
  | lowerBound bound => bound ≤ value
  | upperBound bound => value ≤ bound
  | exactValue bound => value = bound
  | excludeZero => value ≠ 0

section Comparisons

variable {fact left right : IntegerFact} {value other : Int} {primitive : CorePrimitive}
  {desired truth : Bool} {constraint : IntegerConstraint}

theorem applyConstraint_contains (h : factContains fact value = true)
    (hc : constraint.Holds value) : factContains (applyConstraint constraint fact) value = true := by
  have hbounds := factContains_iff.mp h
  cases constraint with
  | lowerBound bound =>
      rw [factContains_iff]
      refine ⟨?_, hbounds.2⟩
      have hmin := hbounds.1
      cases hm : fact.integerMinimum <;> simp [applyConstraint, hm, IntegerConstraint.Holds] at hc hmin ⊢
        <;> omega
  | upperBound bound =>
      rw [factContains_iff]
      refine ⟨hbounds.1, ?_, hbounds.2.2⟩
      have hmax := hbounds.2.1
      cases hm : fact.integerMaximum <;> simp [applyConstraint, hm, IntegerConstraint.Holds] at hc hmax ⊢
        <;> omega
  | exactValue bound =>
      cases hc
      rw [applyConstraint, if_pos h, factContains_iff]
      simpa using hbounds.2.2
  | excludeZero =>
      rw [factContains_iff]
      exact ⟨hbounds.1, hbounds.2.1, fun _ => hc⟩

/-- What the table of a variable and a literal says holds on the edge it is for. -/
theorem constraintFor_holds (hc : constraintFor primitive desired other = some constraint)
    (h : ∀ t, evaluateIntegerComparison primitive value other = some t → t = desired) :
    constraint.Holds value := by
  cases primitive <;> cases desired <;> simp [constraintFor] at hc <;>
    simp [evaluateIntegerComparison] at h <;>
    first
      | (subst hc; simp only [IntegerConstraint.Holds]; omega)
      | (obtain ⟨hzero, rfl⟩ := hc; simp only [IntegerConstraint.Holds]; omega)

theorem evaluateIntegerComparison_reverse (primitive : CorePrimitive) (value other : Int) :
    evaluateIntegerComparison (reversePrimitive primitive) other value
      = evaluateIntegerComparison primitive value other := by
  cases primitive <;> simp [reversePrimitive, evaluateIntegerComparison, eq_comm]

theorem ne_of_disjointFacts (hl : factContains left value = true)
    (hr : factContains right other = true) (h : disjointFacts left right = true) : value ≠ other := by
  have hlb := factContains_iff.mp hl
  have hrb := factContains_iff.mp hr
  simp only [disjointFacts, Bool.or_eq_true, Option.any_eq_true, decide_eq_true_eq,
    Bool.and_eq_true] at h
  rcases h with ((⟨u, hu, l, hlo, hlt⟩ | ⟨u, hu, l, hlo, hlt⟩) | ⟨hz, hn⟩) | ⟨hz, hn⟩
  · have := hlb.2.1 _ hu
    have := hrb.1 _ hlo
    omega
  · have := hrb.2.1 _ hu
    have := hlb.1 _ hlo
    omega
  · have := eq_zero_of_factIsZero hl hz
    have := ne_zero_of_factProvesNonzero hr hn
    omega
  · have := eq_zero_of_factIsZero hr hz
    have := ne_zero_of_factProvesNonzero hl hn
    omega

theorem decideBy_eq_some {alwaysTrue alwaysFalse : Bool} (h : decideBy alwaysTrue alwaysFalse = some truth) :
    (truth = true ∧ alwaysTrue = true) ∨ (truth = false ∧ alwaysFalse = true) := by
  cases alwaysTrue <;> cases alwaysFalse <;> simp [decideBy] at h <;> simp [h]

theorem bothBounded_eq_true {relation : Int → Int → Bool} {b b' : Option Int}
    (h : bothBounded relation b b' = true) :
    ∃ x y, b = some x ∧ b' = some y ∧ relation x y = true := by
  cases b <;> cases b' <;> simp_all [bothBounded]

theorem compareRanges_sound (hl : factContains left value = true)
    (hr : factContains right other = true) (h : compareRanges primitive left right = some truth) :
    evaluateIntegerComparison primitive value other = some truth := by
  have hne := ne_of_disjointFacts hl hr
  rw [factContains_iff] at hl hr
  cases primitive <;> simp only [compareRanges] at h <;>
    simp only [evaluateIntegerComparison, Option.some.injEq] <;> try cases h
  -- the orders: the bounds that decide one answer
  case coreLessThan | coreLessEqual | coreGreaterThan | coreGreaterEqual =>
    rcases decideBy_eq_some h with ⟨rfl, hb⟩ | ⟨rfl, hb⟩ <;>
    · obtain ⟨x, y, hx, hy, hxy⟩ := bothBounded_eq_true hb
      simp only [decide_eq_true_eq] at hxy
      simp only [decide_eq_true_eq, decide_eq_false_iff_not]
      first
        | (have hx := hl.2.1 _ hx; have hy := hr.1 _ hy; omega)
        | (have hx := hl.1 _ hx; have hy := hr.2.1 _ hy; omega)
  case coreEqual | coreNotEqual =>
    split at h
    · next hd => cases h; simpa using hne hd
    · cases h

theorem compareFacts_sound (hl : factContains left value = true)
    (hr : factContains right other = true) (h : compareFacts primitive left right = some truth) :
    evaluateIntegerComparison primitive value other = some truth := by
  unfold compareFacts at h
  split at h
  · next x y hx hy =>
      split at h
      · rw [eq_of_factIsExact hl hx, eq_of_factIsExact hr hy]
        exact h
      · exact compareRanges_sound hl hr h
  · exact compareRanges_sound hl hr h

theorem compareInterval_sound (hf : factContains fact value = true)
    (h : compareInterval primitive fact other = some truth) :
    evaluateIntegerComparison primitive value other = some truth := by
  have hbounds := factContains_iff.mp hf
  have hexact := @eq_of_factIsExact fact value other hf
  have habsent : factContains fact other = false → value ≠ other := by
    rintro hother rfl
    rw [hf] at hother
    cases hother
  cases primitive <;> simp only [compareInterval] at h <;>
    simp only [evaluateIntegerComparison, Option.some.injEq] <;> try cases h
  case coreEqual | coreNotEqual =>
    rcases decideBy_eq_some h with ⟨rfl, hb⟩ | ⟨rfl, hb⟩ <;> simp at hb <;>
      first
        | simpa using hexact hb
        | simpa using habsent hb
  case coreLessThan | coreLessEqual | coreGreaterThan | coreGreaterEqual =>
    rcases decideBy_eq_some h with ⟨rfl, hb⟩ | ⟨rfl, hb⟩ <;>
    · simp only [Option.any_eq_true, decide_eq_true_eq] at hb
      obtain ⟨x, hx, hxy⟩ := hb
      simp only [decide_eq_true_eq, decide_eq_false_iff_not]
      first
        | (have hx := hbounds.2.1 _ hx; omega)
        | (have hx := hbounds.1 _ hx; omega)

end Comparisons

/-! ## A program point -/

section ProgramPoint

variable {φ : Type}

/-- **What facts say of a store**: each symbol with a fact holds an integer the fact contains. Nothing
is described by the facts of a point that is not reached. -/
def IntegerFacts.Describes (facts : IntegerFacts) (locals : Locals φ) : Prop :=
  match facts with
  | unreachableFacts => False
  | reachableFacts facts => ∀ symbol fact, facts.find symbol = some fact →
      ∃ value, locals symbol = some (.integer value) ∧ factContains fact value = true

/-- Every variable of an integer type holds an integer of that type; the others may hold anything. -/
def HoldsIntegers (environment : SortedMap Int (Ty × Bool)) (locals : Locals φ) : Prop :=
  ∀ symbol valueType «mutable», environment.find symbol = some (valueType, «mutable») →
    isCoreIntegerType valueType = true →
    ∃ value, locals symbol = some (.integer value) ∧ integerFitsCoreType valueType value = true

variable {facts left right : IntegerFacts} {locals locals' : Locals φ} {symbol value : Int}

theorem describes_empty (locals : Locals φ) : emptyIntegerFacts.Describes locals := by
  intro symbol fact h
  simp at h

theorem IntegerFacts.Describes.reachable (h : facts.Describes locals) :
    ∃ entries, facts = reachableFacts entries := by
  cases facts with
  | reachableFacts entries => exact ⟨entries, rfl⟩
  | unreachableFacts => exact h.elim

theorem IntegerFacts.Describes.not_unreachable (h : facts.Describes locals) :
    isUnreachableFacts facts = false := by
  obtain ⟨entries, rfl⟩ := h.reachable
  rfl

/-- What is known of a variable contains its value. -/
theorem IntegerFacts.Describes.factForSymbol_contains (h : facts.Describes locals) {valueType : Ty}
    (hv : locals symbol = some (.integer value)) (hfits : integerFitsCoreType valueType value = true) :
    factContains (factForSymbol facts symbol valueType) value = true := by
  obtain ⟨entries, rfl⟩ := h.reachable
  unfold factForSymbol
  cases hf : lookupIntegerFact (reachableFacts entries) symbol with
  | none => exact typeRange_contains hfits
  | some fact =>
      obtain ⟨held, hheld, hcontains⟩ := h symbol fact hf
      rw [hv] at hheld
      cases hheld
      exact hcontains

/-- A write described by the fact that is recorded for it. -/
theorem IntegerFacts.Describes.set (h : facts.Describes locals) {known : Option IntegerFact}
    (hother : ∀ other, other ≠ symbol → locals' other = locals other) (hknown : ∀ fact, known = some fact →
      ∃ value, locals' symbol = some (.integer value) ∧ factContains fact value = true) :
    (setIntegerFact facts symbol known).Describes locals' := by
  obtain ⟨entries, rfl⟩ := h.reachable
  cases known with
  | none =>
      intro s fact hs
      rw [SortedMap.find_erase] at hs
      split at hs
      · cases hs
      · next hne =>
          rw [hother s (Ne.symm hne)]
          exact h s fact hs
  | some fact =>
      obtain ⟨value, hv, hc⟩ := hknown fact rfl
      rw [setIntegerFact, if_neg (by rw [impossibleFact_of_contains hc]; simp)]
      intro s fact' hs
      rw [SortedMap.find_insert] at hs
      split at hs
      · next heq =>
          cases hs
          exact ⟨value, by rw [← heq]; exact hv, hc⟩
      · next hne =>
          rw [hother s (Ne.symm hne)]
          exact h s fact' hs

theorem IntegerFacts.Describes.forget (h : facts.Describes locals)
    (hother : ∀ other, other ≠ symbol → locals' other = locals other) :
    (forgetIntegerFact facts symbol).Describes locals' := by
  obtain ⟨entries, rfl⟩ := h.reachable
  intro s fact hs
  rw [SortedMap.find_erase] at hs
  split at hs
  · cases hs
  · next hne =>
      rw [hother s (Ne.symm hne)]
      exact h s fact hs

theorem IntegerFacts.Describes.join_left (h : left.Describes locals) (right : IntegerFacts) :
    (joinIntegerFacts left right).Describes locals := by
  obtain ⟨entries, rfl⟩ := h.reachable
  cases right with
  | unreachableFacts => exact h
  | reachableFacts entries' =>
      intro s fact hs
      rw [SortedMap.find_intersectWith] at hs
      obtain ⟨first, hfirst, hs⟩ := Option.bind_eq_some_iff.mp hs
      obtain ⟨second, -, rfl⟩ := Option.map_eq_some_iff.mp hs
      obtain ⟨value, hv, hc⟩ := h s first hfirst
      exact ⟨value, hv, joinFact_contains_left hc⟩

theorem IntegerFacts.Describes.join_right (left : IntegerFacts) (h : right.Describes locals) :
    (joinIntegerFacts left right).Describes locals := by
  obtain ⟨entries, rfl⟩ := h.reachable
  cases left with
  | unreachableFacts => exact h
  | reachableFacts entries' =>
      intro s fact hs
      rw [SortedMap.find_intersectWith] at hs
      obtain ⟨first, -, hs⟩ := Option.bind_eq_some_iff.mp hs
      obtain ⟨second, hsecond, rfl⟩ := Option.map_eq_some_iff.mp hs
      obtain ⟨value, hv, hc⟩ := h s second hsecond
      exact ⟨value, hv, joinFact_contains_right hc⟩

/-! ### Refining by a comparison -/

variable {name leftName rightName : ResolvedName} {valueType leftType rightType : Ty}
  {constraint : IntegerConstraint} {other : Int} {primitive : CorePrimitive} {desired : Bool}

theorem IntegerFacts.Describes.constrain (h : facts.Describes locals)
    (hv : locals name.resolvedSymbol = some (.integer value))
    (hfits : integerFitsCoreType valueType value = true) (hc : constraint.Holds value) :
    (constrainVariable name valueType constraint facts).Describes locals := by
  refine h.set (fun _ _ => rfl) ?_
  intro fact hfact
  cases hfact
  exact ⟨value, hv, applyConstraint_contains (h.factForSymbol_contains hv hfits) hc⟩

theorem IntegerFacts.Describes.refineAgainstLiteral (h : facts.Describes locals)
    (hv : locals name.resolvedSymbol = some (.integer value))
    (hfits : integerFitsCoreType valueType value = true)
    (hb : ∀ t, evaluateIntegerComparison primitive value other = some t → t = desired) :
    (refineVariableAgainstLiteral desired primitive name valueType other facts).Describes locals := by
  unfold refineVariableAgainstLiteral
  split
  · next constraint hconstraint => exact h.constrain hv hfits (constraintFor_holds hconstraint hb)
  · exact h

section Pair

variable (h : facts.Describes locals)
  (hv : locals leftName.resolvedSymbol = some (.integer value))
  (hfits : integerFitsCoreType leftType value = true)
  (ho : locals rightName.resolvedSymbol = some (.integer other))
  (hofits : integerFitsCoreType rightType other = true)

include h hv hfits ho hofits

theorem applyPairConstraints_describes {leftConstraint rightConstraint : Option IntegerConstraint}
    (hl : ∀ c, leftConstraint = some c → c.Holds value) (hr : ∀ c, rightConstraint = some c → c.Holds other) :
    (applyPairConstraints leftName leftType rightName rightType facts leftConstraint
      rightConstraint).Describes locals := by
  have hafter : (leftConstraint.elim facts
      fun c => constrainVariable leftName leftType c facts).Describes locals := by
    cases leftConstraint with
    | none => exact h
    | some c => exact h.constrain hv hfits (hl c rfl)
  cases rightConstraint with
  | none => exact hafter
  | some c => exact hafter.constrain ho hofits (hr c rfl)

theorem refineBelow_describes {gap : Int} (hgap : value + gap ≤ other) :
    (refineBelow leftName leftType rightName rightType facts gap).Describes locals := by
  have hl := factContains_iff.mp (h.factForSymbol_contains hv hfits)
  have hr := factContains_iff.mp (h.factForSymbol_contains ho hofits)
  refine applyPairConstraints_describes h hv hfits ho hofits ?_ ?_
  · intro c hc
    obtain ⟨upper, hu, rfl⟩ := Option.map_eq_some_iff.mp hc
    have := hr.2.1 _ hu
    show value ≤ upper - gap
    omega
  · intro c hc
    obtain ⟨lower, hl', rfl⟩ := Option.map_eq_some_iff.mp hc
    have := hl.1 _ hl'
    show lower + gap ≤ other
    omega

theorem refineAbove_describes {gap : Int} (hgap : other + gap ≤ value) :
    (refineAbove leftName leftType rightName rightType facts gap).Describes locals := by
  have hl := factContains_iff.mp (h.factForSymbol_contains hv hfits)
  have hr := factContains_iff.mp (h.factForSymbol_contains ho hofits)
  refine applyPairConstraints_describes h hv hfits ho hofits ?_ ?_
  · intro c hc
    obtain ⟨lower, hl', rfl⟩ := Option.map_eq_some_iff.mp hc
    have := hr.1 _ hl'
    show lower + gap ≤ value
    omega
  · intro c hc
    obtain ⟨upper, hu, rfl⟩ := Option.map_eq_some_iff.mp hc
    have := hl.2.1 _ hu
    show other ≤ upper - gap
    omega

theorem refineEquality_describes (heq : value = other) :
    (refineEquality leftName leftType rightName rightType facts).Describes locals := by
  cases heq
  obtain ⟨common, hcommon, hc⟩ := intersectFacts_contains (h.factForSymbol_contains hv hfits)
    (h.factForSymbol_contains ho hofits)
  unfold refineEquality
  rw [hcommon]
  have hset : (setIntegerFact facts leftName.resolvedSymbol (some common)).Describes locals :=
    h.set (fun _ _ => rfl) fun fact hfact => by cases hfact; exact ⟨value, hv, hc⟩
  exact hset.set (fun _ _ => rfl) fun fact hfact => by cases hfact; exact ⟨value, ho, hc⟩

theorem refineInequality_describes (hne : value ≠ other) :
    (refineInequality leftName leftType rightName rightType facts).Describes locals := by
  unfold refineInequality
  split
  · next hz =>
      have := eq_zero_of_factIsZero (h.factForSymbol_contains hv hfits) hz
      exact h.constrain ho hofits (show other ≠ 0 by omega)
  · split
    · next hz =>
        have := eq_zero_of_factIsZero (h.factForSymbol_contains ho hofits) hz
        exact h.constrain hv hfits (show value ≠ 0 by omega)
    · exact h

/-- Two variables: the table row that is taken agrees with the comparison, or there is none. For one
variable compared with itself the desired truth has to be the one the table states. -/
theorem refineVariableAgainstVariable_describes
    (hb : ∀ t, evaluateIntegerComparison primitive value other = some t → t = desired)
    (hself : leftName.resolvedSymbol = rightName.resolvedSymbol →
      comparisonAlwaysTrueForSelf primitive = desired) :
    (refineVariableAgainstVariable leftName leftType rightName rightType facts desired
      primitive).Describes locals := by
  unfold refineVariableAgainstVariable
  split
  · next hsymbol => rw [if_pos (hself hsymbol)]; exact h
  · have hbelow := fun gap => @refineBelow_describes _ _ _ _ _ _ _ _ _ h hv hfits ho hofits gap
    have habove := fun gap => @refineAbove_describes _ _ _ _ _ _ _ _ _ h hv hfits ho hofits gap
    have hequal := refineEquality_describes h hv hfits ho hofits
    have hunequal := refineInequality_describes h hv hfits ho hofits
    cases primitive <;> cases desired <;> simp [evaluateIntegerComparison] at hb <;>
      first
        | exact h
        | exact hequal hb
        | exact hunequal hb
        | exact hbelow 1 (by omega)
        | exact hbelow 0 (by omega)
        | exact habove 1 (by omega)
        | exact habove 0 (by omega)

end Pair

end ProgramPoint

end Tala.Core.Optimizer
