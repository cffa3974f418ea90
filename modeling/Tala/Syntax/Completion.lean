import Tala.Syntax.Tree

/-!
# `Syntax.Completion` — whether control can reach the end of a statement or an expression

The answers of the type checker about control flow. They err on the side of completing: a call is assumed to
return, and a condition to take either value unless it is the literal `true`.
-/

namespace Tala.Syntax

variable {name : Type}

/-! ## Transfers -/

mutual

/-- The transfers of one statement that target the loop around it. -/
def statementTransfers : Statement name → List (Statement name)
  | .breakStatement span value => .breakStatement span value :: optionalTransfers value
  | .continueStatement span => [.continueStatement span]
  | .bindingStatement _ _ _ _ value => expressionTransfers value
  | .assignmentStatement _ _ _ value => expressionTransfers value
  | .returnStatement _ value => optionalTransfers value
  | .ifStatement _ condition whenTrue whenFalse =>
      expressionTransfers condition ++ blockTransfers whenTrue ++ optionalBlockTransfers whenFalse
  | .whileStatement _ _ _ => []
  | .doWhileStatement _ _ _ => []
  | .forStatement _ initializer _ _ _ => initializerTransfers initializer
  | .forEachStatement _ _ _ _ source _ => expressionTransfers source
  | .incrementStatement _ _ _ => []
  | .compoundAssignmentStatement _ _ _ _ value => expressionTransfers value
  | .discardStatement _ value => expressionTransfers value
  | .guardStatement _ condition block => expressionTransfers condition ++ blockTransfers block
  | .blockStatement _ block => blockTransfers block
  | .expressionStatement _ value _ => expressionTransfers value

/-- The transfers in an expression that target the loop around it. -/
def expressionTransfers : Expression name → List (Statement name)
  | .nameExpression _ _ _ => []
  | .literalExpression _ _ _ => []
  | .memberAccessExpression _ receiver _ _ => expressionTransfers receiver
  | .methodReferenceExpression _ receiver _ _ => expressionTransfers receiver
  | .callExpression _ callee arguments _ => expressionTransfers callee ++ operandTransfers arguments
  | .unaryExpression _ _ operand _ => expressionTransfers operand
  | .binaryExpression _ _ left right _ => expressionTransfers left ++ expressionTransfers right
  | .isPatternExpression _ subject _ _ => expressionTransfers subject
  | .conditionalExpression _ condition first second _ =>
      expressionTransfers condition ++ (expressionTransfers first ++ expressionTransfers second)
  | .coalesceExpression _ left fallback _ => expressionTransfers left ++ expressionTransfers fallback
  | .assignmentExpression _ _ _ value _ => expressionTransfers value
  | .incrementExpression _ _ _ _ => []
  | .loopExpression _ _ _ => []
  | .blockExpression _ block _ => blockTransfers block
  | .matchExpression _ subjects arms _ => operandTransfers subjects ++ armTransfers arms
  | .callableExpression _ _ _ _ _ _ => []

/-- The `break` and `continue` statements in a block that target the loop the block belongs to. -/
def blockTransfers : List (Statement name) → List (Statement name)
  | [] => []
  | statement :: rest => statementTransfers statement ++ blockTransfers rest

def operandTransfers : List (Expression name) → List (Statement name)
  | [] => []
  | operand :: rest => expressionTransfers operand ++ operandTransfers rest

def optionalTransfers : Option (Expression name) → List (Statement name)
  | none => []
  | some value => expressionTransfers value

def optionalBlockTransfers : Option (List (Statement name)) → List (Statement name)
  | none => []
  | some block => blockTransfers block

def initializerTransfers : Option (Statement name) → List (Statement name)
  | none => []
  | some statement => statementTransfers statement

/-- The transfers in the guards and the bodies of arms. -/
def armTransfers : List (MatchArm name) → List (Statement name)
  | [] => []
  | .matchArm _ guard body :: rest => optionalTransfers guard ++ expressionTransfers body ++ armTransfers rest

end

def isBreak : Statement name → Bool
  | .breakStatement _ _ => true
  | _ => false

def leftByBreak (transfers : List (Statement name)) : Bool := transfers.any isBreak

def isConstantTrue : Expression name → Bool
  | .literalExpression _ (.booleanLiteral true) _ => true
  | _ => false

/-! ## Arms -/

/-- Whether a pattern accepts every value of its subject. -/
def acceptsEveryValue : MatchPattern name → Bool
  | .matchWildcardPattern _ => true
  | .matchTypePattern _ _ => true
  | _ => false

/-- Whether an arm has no guard. -/
def isUnguarded (arm : MatchArm name) : Bool := (matchArmGuard arm).isNone

/-- The values of a type that has a closed set of them, as the literals a pattern names. -/
def closedValues (valueType : Ty) : Option (List Literal) :=
  if valueType = boolType then some [.booleanLiteral true, .booleanLiteral false]
  else (enumMemberValues valueType).map fun values => values.map .integerLiteral

def maximumEnumeratedCombinations : Nat := 256

/-- Whether a pattern accepts the value that a literal names. -/
def acceptsLiteral (value : Literal) : MatchPattern name → Bool
  | .matchLiteralPattern literal _ => literal = value
  | pattern => acceptsEveryValue pattern

/-- Whether the patterns of an arm accept the given values of its subjects. -/
def acceptsLiterals (arm : MatchArm name) (values : List Literal) : Bool :=
  (matchArmPatterns arm).length = values.length &&
    (List.zipWith (fun pattern value => acceptsLiteral value pattern) (matchArmPatterns arm) values).all id

/-- The combinations of one value of every domain. -/
def combinations : List (List Literal) → List (List Literal)
  | [] => [[]]
  | domain :: domains => domain.flatMap fun value => (combinations domains).map (value :: ·)

/-- Whether some arm is certain to accept, whatever the subjects are. -/
def matchArmsAlwaysAccept (subjectTypes : List Ty) (arms : List (MatchArm name)) : Bool :=
  let unguarded := arms.filter isUnguarded
  let catchAll := fun arm => (matchArmPatterns arm).all acceptsEveryValue
  let coversClosedValues :=
    match subjectTypes.mapM closedValues with
    | some domains =>
        !domains.isEmpty && decide ((domains.map List.length).prod ≤ maximumEnumeratedCombinations) &&
          (combinations domains).all fun values => unguarded.any fun arm => acceptsLiterals arm values
    | none => false
  unguarded.any catchAll || coversClosedValues

/-- Every typed pattern carries the type of the value it accepts. -/
def subjectTypesOf : List (MatchArm name) → List Ty
  | arm :: _ => (matchArmPatterns arm).map matchPatternAnnotation
  | [] => []

/-! ## Completion -/

/-- The operators whose right operand is evaluated only sometimes. -/
def isShortCircuit (operator : BinaryOperator) : Bool := operator = .logicalAnd || operator = .logicalOr

mutual

/-- Whether control can never reach the point after a statement. -/
def statementCannotComplete : Statement name → Bool
  | .returnStatement _ _ => true
  | .breakStatement _ _ => true
  | .continueStatement _ => true
  | .bindingStatement _ _ _ _ value => doesNotComplete value
  | .assignmentStatement _ _ _ value => doesNotComplete value
  | .compoundAssignmentStatement _ _ _ _ value => doesNotComplete value
  | .discardStatement _ value => doesNotComplete value
  | .ifStatement _ condition whenTrue whenFalse =>
      doesNotComplete condition || (blockCannotComplete whenTrue && elseCannotComplete whenFalse)
  | .guardStatement _ condition _ => doesNotComplete condition
  | .blockStatement _ block => blockCannotComplete block
  | .whileStatement _ condition body =>
      !leftByBreak (expressionTransfers condition ++ blockTransfers body) &&
        (doesNotComplete condition || isConstantTrue condition)
  | .doWhileStatement _ body condition =>
      !leftByBreak (expressionTransfers condition ++ blockTransfers body) &&
        (doesNotComplete condition || isConstantTrue condition)
  | .forStatement _ initializer condition updates body =>
      initializerCannotComplete initializer ||
        (!leftByBreak (optionalTransfers condition ++ blockTransfers body ++ blockTransfers updates) &&
          neverFalse condition)
  | .expressionStatement _ value _ => doesNotComplete value
  | .forEachStatement _ _ _ _ _ _ => false
  | .incrementStatement _ _ _ => false

/-- Whether evaluating an expression never yields a value. -/
def doesNotComplete : Expression name → Bool
  | .blockExpression _ block _ => blockCannotComplete block
  | .conditionalExpression _ condition first second _ =>
      doesNotComplete condition || (doesNotComplete first && doesNotComplete second)
  | .matchExpression _ subjects arms _ =>
      anyDoesNotComplete subjects ||
        (!arms.isEmpty && matchArmsAlwaysAccept (subjectTypesOf arms) arms && bodiesDoNotComplete arms)
  | .loopExpression _ loop _ => statementCannotComplete loop
  | .memberAccessExpression _ receiver _ _ => doesNotComplete receiver
  | .methodReferenceExpression _ receiver _ _ => doesNotComplete receiver
  | .callExpression _ callee arguments _ => doesNotComplete callee || anyDoesNotComplete arguments
  | .unaryExpression _ _ operand _ => doesNotComplete operand
  | .binaryExpression _ operator left right _ =>
      if isShortCircuit operator then doesNotComplete left
      else doesNotComplete left || doesNotComplete right
  | .isPatternExpression _ subject _ _ => doesNotComplete subject
  | .coalesceExpression _ left _ _ => doesNotComplete left
  | .assignmentExpression _ _ _ value _ => doesNotComplete value
  | .nameExpression _ _ _ => false
  | .literalExpression _ _ _ => false
  | .incrementExpression _ _ _ _ => false
  | .callableExpression _ _ _ _ _ _ => false

/-- Whether control can never reach the end of a block. -/
def blockCannotComplete : List (Statement name) → Bool
  | [] => false
  | statement :: rest => statementCannotComplete statement || blockCannotComplete rest

def anyDoesNotComplete : List (Expression name) → Bool
  | [] => false
  | operand :: rest => doesNotComplete operand || anyDoesNotComplete rest

def elseCannotComplete : Option (List (Statement name)) → Bool
  | none => false
  | some block => blockCannotComplete block

def initializerCannotComplete : Option (Statement name) → Bool
  | none => false
  | some statement => statementCannotComplete statement

/-- A condition that is absent, never completes or is the constant true. -/
def neverFalse : Option (Expression name) → Bool
  | none => true
  | some test => doesNotComplete test || isConstantTrue test

def bodiesDoNotComplete : List (MatchArm name) → Bool
  | [] => true
  | .matchArm _ _ body :: rest => doesNotComplete body && bodiesDoNotComplete rest

end

end Tala.Syntax
