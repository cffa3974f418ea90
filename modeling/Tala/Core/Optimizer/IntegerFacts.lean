import Tala.Library.Corners
import Tala.Library.SortedMap
import Tala.Core.IR

/-!
# `Core.Optimizer.IntegerFacts` — path facts about integer variables

A fact about one integer is an interval and a bit that says zero is absent; the facts at a program point
map symbols to facts, or say that the point is not reached. `refineConditionFacts` follows an edge of a
condition, `transferExpressionFacts` steps over an expression, `factOfIntegerExpression` bounds its value,
and `conditionTruthFromFacts` decides a condition when it can. All four recurse over the expression; the
rest of this module is about single facts.
-/

namespace Tala.Core.Optimizer

open Tala Tala.Core Tala.Library

/-- An inclusive interval, and whether zero is absent. -/
structure IntegerFact where
  integerMinimum : Option Int
  integerMaximum : Option Int
  integerExcludesZero : Bool
  deriving DecidableEq, Repr

/-- Facts at a program point, or the mark of a point that is not reached. -/
inductive IntegerFacts
  | reachableFacts (facts : SortedMap Int IntegerFact)
  | unreachableFacts

namespace IntegerFacts

def emptyIntegerFacts : IntegerFacts := reachableFacts SortedMap.empty

def isUnreachableFacts : IntegerFacts → Bool
  | unreachableFacts => true
  | reachableFacts _ => false

def lookupIntegerFact : IntegerFacts → Int → Option IntegerFact
  | reachableFacts facts, symbol => facts.find symbol
  | unreachableFacts, _ => none

/-- Forget a symbol after a write whose value is not modelled. -/
def forgetIntegerFact : IntegerFacts → Int → IntegerFacts
  | reachableFacts facts, symbol => reachableFacts (facts.erase symbol)
  | unreachableFacts, _ => unreachableFacts

end IntegerFacts

open IntegerFacts

/-! ## Facts about one value -/

def unknownFact : IntegerFact := ⟨none, none, false⟩

def exactFact (value : Int) : IntegerFact := ⟨some value, some value, value ≠ 0⟩

/-- The range of an integer type. -/
def typeRange (valueType : Ty) : IntegerFact :=
  match coreIntegerBitWidth valueType, coreIntegerIsSigned valueType with
  | some width, some true => ⟨some (-(2 ^ (width - 1))), some (2 ^ (width - 1) - 1), false⟩
  | some width, some false => ⟨some 0, some (2 ^ width - 1), false⟩
  | _, _ => unknownFact

def factIsExact (fact : IntegerFact) : Option Int :=
  match fact.integerMinimum, fact.integerMaximum with
  | some lower, some upper => if lower = upper then some lower else none
  | _, _ => none

def factIsZero (fact : IntegerFact) : Bool := factIsExact fact = some 0

/-- Whether a value is one the fact stands for. -/
def factContains (fact : IntegerFact) (value : Int) : Bool :=
  fact.integerMinimum.all (· ≤ value) && fact.integerMaximum.all (· ≥ value)
    && !(value = 0 && fact.integerExcludesZero)

/-- No value is left: the interval is empty, or it holds only a zero that is excluded. -/
def impossibleFact (fact : IntegerFact) : Bool :=
  fact.integerMinimum.any (fun lower => fact.integerMaximum.any (lower > ·))
    || (fact.integerExcludesZero && factIsZero fact)

def factProvesNonzero (fact : IntegerFact) : Bool :=
  fact.integerExcludesZero || fact.integerMinimum.any (· > 0) || fact.integerMaximum.any (· < 0)

/-- The truth of a condition on a value with the fact. -/
def factTruth (fact : IntegerFact) : Option Bool :=
  if factIsZero fact then some false
  else if factProvesNonzero fact then some true
  else none

/-- An interval, when both ends are values of the type: then no operation on it wrapped. -/
def checkedInterval (valueType : Ty) (lower upper : Int) : Option IntegerFact :=
  if !(integerFitsCoreType valueType lower && integerFitsCoreType valueType upper) then none
  else some ⟨some lower, some upper, lower > 0 || upper < 0⟩

/-- The range of an operation on two bounded facts. -/
def intervalResult (resultType : Ty) (operation : Int → Int → Int) (left right : IntegerFact) :
    Option IntegerFact := do
  let lowerLeft ← left.integerMinimum
  let upperLeft ← left.integerMaximum
  let lowerRight ← right.integerMinimum
  let upperRight ← right.integerMaximum
  checkedInterval resultType (cornerMinimum operation lowerLeft upperLeft lowerRight upperRight)
    (cornerMaximum operation lowerLeft upperLeft lowerRight upperRight)

/-- A product of nonzero values that does not wrap is not zero. -/
def multiplyResult (resultType : Ty) (left right : IntegerFact) : Option IntegerFact :=
  (intervalResult resultType (· * ·) left right).map fun result =>
    { result with integerExcludesZero := factProvesNonzero left && factProvesNonzero right }

def combineIntegerFacts (primitive : CorePrimitive) (resultType : Ty) (left right : IntegerFact) :
    Option IntegerFact :=
  match primitive with
  | .coreAdd => intervalResult resultType (· + ·) left right
  | .coreSubtract => intervalResult resultType (· - ·) left right
  | .coreMultiply => multiplyResult resultType left right
  | _ => none

def negateFact (valueType : Ty) (fact : IntegerFact) : IntegerFact :=
  match fact.integerMaximum, fact.integerMinimum with
  | some upper, some lower =>
      if integerFitsCoreType valueType (-upper) && integerFitsCoreType valueType (-lower) then
        ⟨some (-upper), some (-lower), fact.integerExcludesZero || lower > 0 || upper < 0⟩
      else unknownFact
  | _, _ => unknownFact

/-- Both values of two bounds, combined; a missing bound is unbounded. -/
def hullBound (combine : Int → Int → Int) : Option Int → Option Int → Option Int
  | some first, some second => some (combine first second)
  | _, _ => none

/-- The tighter of two bounds; a missing bound is unbounded. -/
def tighterBound (combine : Int → Int → Int) : Option Int → Option Int → Option Int
  | some first, some second => some (combine first second)
  | some value, none => some value
  | none, some value => some value
  | none, none => none

/-- The interval hull; zero is absent when both facts prove it. -/
def joinFact (left right : IntegerFact) : IntegerFact :=
  ⟨hullBound min left.integerMinimum right.integerMinimum,
    hullBound max left.integerMaximum right.integerMaximum,
    factProvesNonzero left && factProvesNonzero right⟩

/-- The values both facts allow. -/
def intersectFacts (left right : IntegerFact) : Option IntegerFact :=
  let common : IntegerFact :=
    ⟨tighterBound max left.integerMinimum right.integerMinimum,
      tighterBound min left.integerMaximum right.integerMaximum,
      left.integerExcludesZero || right.integerExcludesZero⟩
  if impossibleFact common then none else some common

/-! ## Facts about a program point -/

/-- Record what is known of a symbol after a write. -/
def setIntegerFact (facts : IntegerFacts) (symbol : Int) (value : Option IntegerFact) : IntegerFacts :=
  match facts, value with
  | unreachableFacts, _ => unreachableFacts
  | reachableFacts facts, none => reachableFacts (facts.erase symbol)
  | reachableFacts facts, some fact =>
      if impossibleFact fact then unreachableFacts else reachableFacts (facts.insert symbol fact)

/-- What is known of a variable: its fact, or the range of its type. -/
def factForSymbol (facts : IntegerFacts) (symbol : Int) (valueType : Ty) : IntegerFact :=
  (lookupIntegerFact facts symbol).getD (typeRange valueType)

/-- Merge two paths: what holds on both. A path that is not reached does not count. -/
def joinIntegerFacts (left right : IntegerFacts) : IntegerFacts :=
  match left, right with
  | unreachableFacts, reachable => reachable
  | reachable, unreachableFacts => reachable
  | reachableFacts left, reachableFacts right =>
      reachableFacts (left.intersectWith (fun _ => joinFact) right)

/-! ## Comparisons -/

inductive IntegerConstraint
  | lowerBound (value : Int)
  | upperBound (value : Int)
  | exactValue (value : Int)
  | excludeZero

open IntegerConstraint

def applyConstraint (constraint : IntegerConstraint) (fact : IntegerFact) : IntegerFact :=
  match constraint with
  | lowerBound value =>
      { fact with integerMinimum := some (fact.integerMinimum.elim value (max value)) }
  | upperBound value =>
      { fact with integerMaximum := some (fact.integerMaximum.elim value (min value)) }
  | exactValue value =>
      if factContains fact value then ⟨some value, some value, fact.integerExcludesZero⟩
      else ⟨some 1, some 0, true⟩
  | excludeZero => { fact with integerExcludesZero := true }

def constrainVariable (name : ResolvedName) (valueType : Ty) (constraint : IntegerConstraint)
    (facts : IntegerFacts) : IntegerFacts :=
  setIntegerFact facts name.resolvedSymbol
    (some (applyConstraint constraint (factForSymbol facts name.resolvedSymbol valueType)))

/-- What a comparison of a variable with a literal says of the variable. -/
def constraintFor (primitive : CorePrimitive) (desired : Bool) (value : Int) :
    Option IntegerConstraint :=
  match primitive, desired with
  | .coreEqual, true => some (exactValue value)
  | .coreEqual, false => if value = 0 then some excludeZero else none
  | .coreNotEqual, true => if value = 0 then some excludeZero else none
  | .coreNotEqual, false => some (exactValue value)
  | .coreLessThan, true => some (upperBound (value - 1))
  | .coreLessThan, false => some (lowerBound value)
  | .coreLessEqual, true => some (upperBound value)
  | .coreLessEqual, false => some (lowerBound (value + 1))
  | .coreGreaterThan, true => some (lowerBound (value + 1))
  | .coreGreaterThan, false => some (upperBound value)
  | .coreGreaterEqual, true => some (lowerBound value)
  | .coreGreaterEqual, false => some (upperBound (value - 1))
  | _, _ => none

/-- The comparison with its operands exchanged. -/
def reversePrimitive : CorePrimitive → CorePrimitive
  | .coreLessThan => .coreGreaterThan
  | .coreLessEqual => .coreGreaterEqual
  | .coreGreaterThan => .coreLessThan
  | .coreGreaterEqual => .coreLessEqual
  | primitive => primitive

/-- Whether the comparison holds of a value and itself. -/
def comparisonAlwaysTrueForSelf : CorePrimitive → Bool
  | .coreEqual => true
  | .coreLessEqual => true
  | .coreGreaterEqual => true
  | _ => false

def integerVariable : CoreExpression → Option (ResolvedName × Ty)
  | .coreVariable name valueType => if isCoreIntegerType valueType then some (name, valueType) else none
  | _ => none

def integerLiteral : CoreExpression → Option Int
  | .coreLiteral (.coreInteger value) valueType =>
      if isCoreIntegerType valueType then some value else none
  | _ => none

def refineVariableAgainstLiteral (desired : Bool) (primitive : CorePrimitive) (name : ResolvedName)
    (valueType : Ty) (value : Int) (facts : IntegerFacts) : IntegerFacts :=
  match constraintFor primitive desired value with
  | some constraint => constrainVariable name valueType constraint facts
  | none => facts

section VariableAgainstVariable

variable (leftName : ResolvedName) (leftType : Ty) (rightName : ResolvedName) (rightType : Ty)
  (facts : IntegerFacts)

def refineEquality : IntegerFacts :=
  match intersectFacts (factForSymbol facts leftName.resolvedSymbol leftType)
      (factForSymbol facts rightName.resolvedSymbol rightType) with
  | none => unreachableFacts
  | some common =>
      setIntegerFact (setIntegerFact facts leftName.resolvedSymbol (some common))
        rightName.resolvedSymbol (some common)

def refineInequality : IntegerFacts :=
  if factIsZero (factForSymbol facts leftName.resolvedSymbol leftType) then
    constrainVariable rightName rightType excludeZero facts
  else if factIsZero (factForSymbol facts rightName.resolvedSymbol rightType) then
    constrainVariable leftName leftType excludeZero facts
  else facts

/-- Constrain the left variable, then the right one. -/
def applyPairConstraints (leftConstraint rightConstraint : Option IntegerConstraint) : IntegerFacts :=
  let afterLeft := leftConstraint.elim facts fun c => constrainVariable leftName leftType c facts
  rightConstraint.elim afterLeft fun c => constrainVariable rightName rightType c afterLeft

/-- The left variable is below the right one by at least `gap`. -/
def refineBelow (gap : Int) : IntegerFacts :=
  applyPairConstraints leftName leftType rightName rightType facts
    ((factForSymbol facts rightName.resolvedSymbol rightType).integerMaximum.map
      fun upper => upperBound (upper - gap))
    ((factForSymbol facts leftName.resolvedSymbol leftType).integerMinimum.map
      fun lower => lowerBound (lower + gap))

/-- The left variable is above the right one by at least `gap`. -/
def refineAbove (gap : Int) : IntegerFacts :=
  applyPairConstraints leftName leftType rightName rightType facts
    ((factForSymbol facts rightName.resolvedSymbol rightType).integerMinimum.map
      fun lower => lowerBound (lower + gap))
    ((factForSymbol facts leftName.resolvedSymbol leftType).integerMaximum.map
      fun upper => upperBound (upper - gap))

def refineStrictLessThan : IntegerFacts := refineBelow leftName leftType rightName rightType facts 1
def refineLessEqual : IntegerFacts := refineBelow leftName leftType rightName rightType facts 0
def refineStrictGreaterThan : IntegerFacts := refineAbove leftName leftType rightName rightType facts 1
def refineGreaterEqual : IntegerFacts := refineAbove leftName leftType rightName rightType facts 0

def refineVariableAgainstVariable (desired : Bool) (primitive : CorePrimitive) : IntegerFacts :=
  if leftName.resolvedSymbol = rightName.resolvedSymbol then
    -- the table for one variable is not limited to comparisons
    if comparisonAlwaysTrueForSelf primitive = desired then facts else unreachableFacts
  else
    match primitive, desired with
    | .coreEqual, true => refineEquality leftName leftType rightName rightType facts
    | .coreNotEqual, false => refineEquality leftName leftType rightName rightType facts
    | .coreEqual, false => refineInequality leftName leftType rightName rightType facts
    | .coreNotEqual, true => refineInequality leftName leftType rightName rightType facts
    | .coreLessThan, true => refineStrictLessThan leftName leftType rightName rightType facts
    | .coreLessThan, false => refineGreaterEqual leftName leftType rightName rightType facts
    | .coreLessEqual, true => refineLessEqual leftName leftType rightName rightType facts
    | .coreLessEqual, false => refineStrictGreaterThan leftName leftType rightName rightType facts
    | .coreGreaterThan, true => refineStrictGreaterThan leftName leftType rightName rightType facts
    | .coreGreaterThan, false => refineLessEqual leftName leftType rightName rightType facts
    | .coreGreaterEqual, true => refineGreaterEqual leftName leftType rightName rightType facts
    | .coreGreaterEqual, false => refineStrictLessThan leftName leftType rightName rightType facts
    | _, _ => facts

end VariableAgainstVariable

def refineComparison (desired : Bool) (primitive : CorePrimitive) (left right : CoreExpression)
    (facts : IntegerFacts) : IntegerFacts :=
  match integerVariable left, integerVariable right with
  | some (leftName, leftType), some (rightName, rightType) =>
      refineVariableAgainstVariable leftName leftType rightName rightType facts desired primitive
  | leftVariable, rightVariable =>
      match leftVariable, integerLiteral right with
      | some (name, valueType), some value =>
          refineVariableAgainstLiteral desired primitive name valueType value facts
      | _, _ =>
          match integerLiteral left, rightVariable with
          | some value, some (name, valueType) =>
              refineVariableAgainstLiteral desired (reversePrimitive primitive) name valueType value facts
          | _, _ => facts

def evaluateIntegerComparison (primitive : CorePrimitive) (left right : Int) : Option Bool :=
  match primitive with
  | .coreEqual => some (left = right)
  | .coreNotEqual => some (left ≠ right)
  | .coreLessThan => some (left < right)
  | .coreLessEqual => some (left ≤ right)
  | .coreGreaterThan => some (left > right)
  | .coreGreaterEqual => some (left ≥ right)
  | _ => none

def disjointFacts (left right : IntegerFact) : Bool :=
  left.integerMaximum.any (fun leftUpper => right.integerMinimum.any (leftUpper < ·))
    || right.integerMaximum.any (fun rightUpper => left.integerMinimum.any (rightUpper < ·))
    || (factIsZero left && factProvesNonzero right)
    || (factIsZero right && factProvesNonzero left)

/-- Both bounds are there and stand in the relation. -/
def bothBounded (relation : Int → Int → Bool) : Option Int → Option Int → Bool
  | some first, some second => relation first second
  | _, _ => false

/-- A question with a sufficient condition for each answer. -/
def decideBy (alwaysTrue alwaysFalse : Bool) : Option Bool :=
  if alwaysTrue then some true else if alwaysFalse then some false else none

/-- A comparison of two variables that different values are known of. -/
def compareRanges (primitive : CorePrimitive) (left right : IntegerFact) : Option Bool :=
  let below relation := bothBounded relation left.integerMaximum right.integerMinimum
  let above relation := bothBounded relation left.integerMinimum right.integerMaximum
  match primitive with
  | .coreEqual => if disjointFacts left right then some false else none
  | .coreNotEqual => if disjointFacts left right then some true else none
  | .coreLessThan => decideBy (below (· < ·)) (above (· ≥ ·))
  | .coreLessEqual => decideBy (below (· ≤ ·)) (above (· > ·))
  | .coreGreaterThan => decideBy (above (· > ·)) (below (· ≤ ·))
  | .coreGreaterEqual => decideBy (above (· ≥ ·)) (below (· < ·))
  | _ => none

def compareFacts (primitive : CorePrimitive) (left right : IntegerFact) : Option Bool :=
  match factIsExact left, factIsExact right with
  | some leftValue, some rightValue =>
      if leftValue = rightValue then evaluateIntegerComparison primitive leftValue rightValue
      else compareRanges primitive left right
  | _, _ => compareRanges primitive left right

/-- A comparison of a variable with a literal. -/
def compareInterval (primitive : CorePrimitive) (fact : IntegerFact) (literal : Int) : Option Bool :=
  let lower (relation : Int → Bool) := fact.integerMinimum.any relation
  let upper (relation : Int → Bool) := fact.integerMaximum.any relation
  match primitive with
  | .coreEqual => decideBy (factIsExact fact = some literal) (!factContains fact literal)
  | .coreNotEqual => decideBy (!factContains fact literal) (factIsExact fact = some literal)
  | .coreLessThan => decideBy (upper (· < literal)) (lower (· ≥ literal))
  | .coreLessEqual => decideBy (upper (· ≤ literal)) (lower (· > literal))
  | .coreGreaterThan => decideBy (lower (· > literal)) (upper (· ≤ literal))
  | .coreGreaterEqual => decideBy (lower (· ≥ literal)) (upper (· < literal))
  | _ => none

def comparisonTruth (facts : IntegerFacts) (primitive : CorePrimitive)
    (leftExpression rightExpression : CoreExpression) : Option Bool :=
  match integerVariable leftExpression, integerVariable rightExpression with
  | some (leftName, leftType), some (rightName, rightType) =>
      compareFacts primitive (factForSymbol facts leftName.resolvedSymbol leftType)
        (factForSymbol facts rightName.resolvedSymbol rightType)
  | leftVariable, rightVariable =>
      match leftVariable, integerLiteral rightExpression with
      | some (name, valueType), some literal =>
          compareInterval primitive (factForSymbol facts name.resolvedSymbol valueType) literal
      | _, _ =>
          match integerLiteral leftExpression, rightVariable with
          | some literal, some (name, valueType) =>
              compareInterval (reversePrimitive primitive)
                (factForSymbol facts name.resolvedSymbol valueType) literal
          | _, _ =>
              match integerLiteral leftExpression, integerLiteral rightExpression with
              | some left, some right => evaluateIntegerComparison primitive left right
              | _, _ => none

/-! ## Expressions -/

mutual

/-- Whether evaluating an expression can invoke a callable. -/
def expressionInvokesCallable : CoreExpression → Bool
  | .coreVariable _ _ => false
  | .coreLiteral _ _ => false
  | .coreApply _ _ _ => true
  | .corePrimitive _ arguments _ => expressionsInvokeCallable arguments
  | .coreLet _ _ value body _ => expressionInvokesCallable value || expressionInvokesCallable body
  | .coreConditional condition whenTrue whenFalse _ =>
      expressionInvokesCallable condition || expressionInvokesCallable whenTrue
        || expressionInvokesCallable whenFalse
  -- the body of a closure is deferred: only its captures are evaluated now
  | .coreClosure captures _ _ _ _ => capturesInvokeCallable captures

def expressionsInvokeCallable : List CoreExpression → Bool
  | [] => false
  | expression :: remaining =>
      expressionInvokesCallable expression || expressionsInvokeCallable remaining

def capturesInvokeCallable : List CoreCapture → Bool
  | [] => false
  | .coreCapture _ _ _ value :: remaining =>
      expressionInvokesCallable value || capturesInvokeCallable remaining

end

/-- The facts after a binding, from those after its value and the fact of the value. -/
def bindIntegerFact (afterValue : IntegerFacts) (name : ResolvedName) (bindingType : Ty)
    (value : CoreExpression) (fact : Option IntegerFact) : IntegerFacts :=
  setIntegerFact afterValue name.resolvedSymbol
    (if expressionInvokesCallable value then none
    else if isCoreIntegerType bindingType then fact
    else none)

/-- Truth of a condition from its two edges; `truth` is asked when both are feasible. -/
def truthFromEdges (facts : IntegerFacts) (expression : CoreExpression)
    (whenTrue whenFalse : IntegerFacts) (truth : Option Bool) : Option Bool :=
  match facts with
  | unreachableFacts => none
  | reachableFacts _ =>
      if expressionInvokesCallable expression then none
      else if isUnreachableFacts whenTrue then some false
      else if isUnreachableFacts whenFalse then some true
      else truth

/-- The facts after both operands of `&&` or `||`, by what is known of the left one. -/
def joinShortCircuit (isAnd : Bool) (leftTruth : Option Bool) (afterLeft afterRight : IntegerFacts) :
    IntegerFacts :=
  if leftTruth = some !isAnd then afterLeft
  else
    match leftTruth with
    | some _ => afterRight
    | none => joinIntegerFacts afterLeft afterRight

mutual

/-- An interval for the value of an expression, where the analysis has one. -/
def factOfIntegerExpression (facts : IntegerFacts) : CoreExpression → Option IntegerFact
  | .coreLiteral (.coreInteger value) valueType =>
      if isCoreIntegerType valueType then some (exactFact value) else none
  | .coreVariable name valueType =>
      if isCoreIntegerType valueType then some (factForSymbol facts name.resolvedSymbol valueType)
      else none
  | .corePrimitive primitive arguments valueType =>
      if isCoreIntegerType valueType then
        match primitive, arguments with
        | .coreNegate, [value] => (factOfIntegerExpression facts value).map (negateFact valueType)
        | primitive, [left, right] => do
            let leftFact ← factOfIntegerExpression facts left
            let rightFact ← factOfIntegerExpression facts right
            combineIntegerFacts primitive valueType leftFact rightFact
        | _, _ => none
      else none
  | .coreLet name _ value body resultType =>
      if isCoreIntegerType resultType then
        let afterValue := transferExpressionFacts facts value
        let bound := setIntegerFact afterValue name.resolvedSymbol
          (factOfIntegerExpression afterValue value)
        factOfIntegerExpression bound body
      else none
  | .coreConditional condition whenTrue whenFalse resultType =>
      if isCoreIntegerType resultType then
        let afterCondition := transferExpressionFacts facts condition
        let trueFacts := refineConditionFacts true condition afterCondition
        let falseFacts := refineConditionFacts false condition afterCondition
        match isUnreachableFacts trueFacts, isUnreachableFacts falseFacts with
        | true, true => none
        | true, false => factOfIntegerExpression falseFacts whenFalse
        | false, true => factOfIntegerExpression trueFacts whenTrue
        | false, false => do
            let trueFact ← factOfIntegerExpression trueFacts whenTrue
            let falseFact ← factOfIntegerExpression falseFacts whenFalse
            some (joinFact trueFact falseFact)
      else none
  | _ => none

/-- The facts after an expression: a call may write captured cells, so nothing survives it. -/
def transferExpressionFacts (facts : IntegerFacts) (expression : CoreExpression) : IntegerFacts :=
  match facts with
  | unreachableFacts => unreachableFacts
  | reachableFacts _ =>
      match expression with
      | .corePrimitive .coreLogicalAnd [left, right] _ =>
          let afterLeft := transferExpressionFacts facts left
          let afterRight :=
            transferExpressionFacts (refineConditionFacts true left afterLeft) right
          joinShortCircuit true (truthFromEdges facts left (refineConditionFacts true left facts)
            (refineConditionFacts false left facts) (truthOfCondition facts left)) afterLeft afterRight
      | .corePrimitive .coreLogicalOr [left, right] _ =>
          let afterLeft := transferExpressionFacts facts left
          let afterRight :=
            transferExpressionFacts (refineConditionFacts false left afterLeft) right
          joinShortCircuit false (truthFromEdges facts left (refineConditionFacts true left facts)
            (refineConditionFacts false left facts) (truthOfCondition facts left)) afterLeft afterRight
      | .coreConditional condition whenTrue whenFalse _ =>
          let afterCondition := transferExpressionFacts facts condition
          joinIntegerFacts
            (transferExpressionFacts (refineConditionFacts true condition afterCondition) whenTrue)
            (transferExpressionFacts (refineConditionFacts false condition afterCondition) whenFalse)
      | expression =>
          if expressionInvokesCallable expression then emptyIntegerFacts else facts

/-- The facts on the edge of a condition along which it has the desired truth. -/
def refineConditionFacts (desired : Bool) (expression : CoreExpression) (facts : IntegerFacts) :
    IntegerFacts :=
  match facts with
  | unreachableFacts => unreachableFacts
  | reachableFacts _ =>
      match expression with
      | .coreLiteral (.coreBoolean literal) _ => if literal ≠ desired then unreachableFacts else facts
      | .coreLiteral (.coreInteger literal) valueType =>
          if isCoreIntegerType valueType && decide (literal ≠ 0) ≠ desired then unreachableFacts
          else facts
      | .coreVariable name valueType =>
          if isCoreIntegerType valueType then
            constrainVariable name valueType (if desired then excludeZero else exactValue 0) facts
          else facts
      | .corePrimitive primitive arguments _ =>
          match primitive, arguments with
          | .coreLogicalNot, [nested] => refineConditionFacts (!desired) nested facts
          | .coreLogicalAnd, [left, right] =>
              if desired then
                refineConditionFacts true right (refineConditionFacts true left facts)
              else
                joinIntegerFacts (refineConditionFacts false left facts)
                  (refineConditionFacts false right (refineConditionFacts true left facts))
          | .coreLogicalOr, [left, right] =>
              if desired then
                joinIntegerFacts (refineConditionFacts true left facts)
                  (refineConditionFacts true right (refineConditionFacts false left facts))
              else
                refineConditionFacts false right (refineConditionFacts false left facts)
          | primitive, [left, right] =>
              if expressionInvokesCallable left || expressionInvokesCallable right then
                emptyIntegerFacts
              else refineComparison desired primitive left right facts
          | _, arguments =>
              if expressionsInvokeCallable arguments then emptyIntegerFacts else facts
      | .coreApply _ _ _ => emptyIntegerFacts
      | .coreLet name bindingType initializer body _ =>
          -- the initializer is stepped over once for itself and once as the value of the binding
          let afterInitializer := transferExpressionFacts facts initializer
          let afterBinding :=
            bindIntegerFact (transferExpressionFacts afterInitializer initializer) name bindingType
              initializer (factOfIntegerExpression afterInitializer initializer)
          forgetIntegerFact (refineConditionFacts desired body afterBinding) name.resolvedSymbol
      | .coreConditional condition whenTrue whenFalse _ =>
          let afterCondition := transferExpressionFacts facts condition
          joinIntegerFacts
            (refineConditionFacts desired whenTrue (refineConditionFacts true condition afterCondition))
            (refineConditionFacts desired whenFalse
              (refineConditionFacts false condition afterCondition))
      | expression => if expressionInvokesCallable expression then emptyIntegerFacts else facts

/-- `truth` of the source: what is known of a condition both of whose edges are feasible. -/
def truthOfCondition (facts : IntegerFacts) : CoreExpression → Option Bool
  | .coreLiteral (.coreBoolean boolean) _ => some boolean
  | .coreLiteral (.coreInteger integerValue) valueType =>
      if isCoreIntegerType valueType then some (integerValue ≠ 0) else none
  | .coreVariable name valueType =>
      if isCoreIntegerType valueType then
        factTruth (factForSymbol facts name.resolvedSymbol valueType)
      else none
  | .corePrimitive primitive arguments _ =>
      match primitive, arguments with
      | .coreLogicalNot, [nested] =>
          (truthFromEdges facts nested (refineConditionFacts true nested facts)
            (refineConditionFacts false nested facts) (truthOfCondition facts nested)).map (!·)
      | .coreLogicalAnd, [left, right] => do
          let leftTruth ← truthFromEdges facts left (refineConditionFacts true left facts)
            (refineConditionFacts false left facts) (truthOfCondition facts left)
          let rightTruth ← truthFromEdges facts right (refineConditionFacts true right facts)
            (refineConditionFacts false right facts) (truthOfCondition facts right)
          some (leftTruth && rightTruth)
      | .coreLogicalOr, [left, right] => do
          let leftTruth ← truthFromEdges facts left (refineConditionFacts true left facts)
            (refineConditionFacts false left facts) (truthOfCondition facts left)
          let rightTruth ← truthFromEdges facts right (refineConditionFacts true right facts)
            (refineConditionFacts false right facts) (truthOfCondition facts right)
          some (leftTruth || rightTruth)
      | primitive, [left, right] => comparisonTruth facts primitive left right
      | _, _ => none
  | .coreConditional condition whenTrue whenFalse _ =>
      let trueFacts := refineConditionFacts true condition facts
      let falseFacts := refineConditionFacts false condition facts
      match truthFromEdges facts condition trueFacts falseFacts (truthOfCondition facts condition) with
      | some true =>
          truthFromEdges trueFacts whenTrue (refineConditionFacts true whenTrue trueFacts)
            (refineConditionFacts false whenTrue trueFacts) (truthOfCondition trueFacts whenTrue)
      | some false =>
          truthFromEdges falseFacts whenFalse (refineConditionFacts true whenFalse falseFacts)
            (refineConditionFacts false whenFalse falseFacts) (truthOfCondition falseFacts whenFalse)
      | none => none
  | _ => none

end

section Unreachable

attribute [local simp] factOfIntegerExpression transferExpressionFacts refineConditionFacts truthOfCondition

end Unreachable

/-- Truth of a condition, when one of its edges is infeasible. -/
def conditionTruthFromFacts (facts : IntegerFacts) (expression : CoreExpression) : Option Bool :=
  truthFromEdges facts expression (refineConditionFacts true expression facts)
    (refineConditionFacts false expression facts) (truthOfCondition facts expression)

end Tala.Core.Optimizer
