import Tala.AST
import Tala.Syntax.Source

/-!
# `Syntax.Tree` — the typed syntax tree

Statements, expressions and the arms of a `match` after type checking: every annotation is a type. The spans of
patterns, arms and parameters are left out, and so is the syntax of types. A block is the list of its
statements.
-/

namespace Tala.Syntax

/-- The empty span at the start of a source without a name. -/
def emptySpan : SourceSpan := ⟨"", ⟨1, 1⟩, ⟨1, 1⟩⟩

/-- Literal token value after lexical escape decoding. -/
inductive Literal
  | integerLiteral (value : Int)
  | floatingLiteral (spelling : String)
  | characterLiteral (scalar : Int)
  | booleanLiteral (value : Bool)
  | stringLiteral (text : String)
  | unitLiteral
deriving DecidableEq, Repr

inductive UnaryOperator
  | unaryPlus | unaryNegate | logicalNot | bitwiseNot
deriving DecidableEq, Repr

inductive BinaryOperator
  | add | subtract | multiply | divide | floorDivide | remainder | power | shiftLeft | shiftRight
  | bitwiseAnd | bitwiseXor | bitwiseOr | lessThan | lessEqual | greaterThan | greaterEqual | equal
  | notEqual | logicalAnd | logicalOr
deriving DecidableEq, Repr

inductive BindingKind
  | immutableBinding | mutableBinding
deriving DecidableEq, Repr

/-- Callable parameter. -/
structure Parameter (name : Type) where
  parameterName : name
  parameterAnnotation : Ty

/-- Pattern of a `match` arm for one subject. -/
inductive MatchPattern (name : Type)
  | matchWildcardPattern (annotated : Ty)
  | matchLiteralPattern (literal : Literal) (annotated : Ty)
  | matchNullPattern (annotated : Ty)
  | matchTypePattern (binding : Option name) (annotated : Ty)
  | matchCasePattern (member : Identifier) (annotated : Ty)

/-- Annotation of a match pattern: after type checking, the subject type. -/
def matchPatternAnnotation {name : Type} : MatchPattern name → Ty
  | .matchWildcardPattern annotated => annotated
  | .matchLiteralPattern _ annotated => annotated
  | .matchNullPattern annotated => annotated
  | .matchTypePattern _ annotated => annotated
  | .matchCasePattern _ annotated => annotated

inductive RelationalPatternOperator
  | patternLessThan | patternLessEqual | patternGreaterThan | patternGreaterEqual | patternEqual | patternNotEqual
deriving DecidableEq, Repr

/-- Test of an `is` expression. -/
inductive Pattern
  | wildcardPattern (annotated : Ty)
  | nullPattern (annotated : Ty)
  | literalPattern (literal : Literal) (annotated : Ty)
  | typePattern (annotated : Ty)
  | relationalPattern (operator : RelationalPatternOperator) (literal : Literal) (annotated : Ty)
  | notPattern (pattern : Pattern) (annotated : Ty)
  | andPattern (left right : Pattern) (annotated : Ty)
  | orPattern (left right : Pattern) (annotated : Ty)

mutual

inductive Statement (name : Type)
  | bindingStatement (span : SourceSpan) (kind : BindingKind) (target : name) (annotated : Ty)
      (value : Expression name)
  | assignmentStatement (span : SourceSpan) (target : name) (annotated : Ty) (value : Expression name)
  | returnStatement (span : SourceSpan) (value : Option (Expression name))
  | ifStatement (span : SourceSpan) (condition : Expression name) (whenTrue : List (Statement name))
      (whenFalse : Option (List (Statement name)))
  | whileStatement (span : SourceSpan) (condition : Expression name) (body : List (Statement name))
  | doWhileStatement (span : SourceSpan) (body : List (Statement name)) (condition : Expression name)
  | forStatement (span : SourceSpan) (initializer : Option (Statement name)) (condition : Option (Expression name))
      (updates body : List (Statement name))
  | forEachStatement (span : SourceSpan) (kind : BindingKind) (target : name) (annotated : Ty)
      (source : Expression name) (body : List (Statement name))
  | incrementStatement (span : SourceSpan) (target : name) (annotated : Ty)
  | compoundAssignmentStatement (span : SourceSpan) (operator : BinaryOperator) (target : name) (annotated : Ty)
      (value : Expression name)
  | discardStatement (span : SourceSpan) (value : Expression name)
  | breakStatement (span : SourceSpan) (value : Option (Expression name))
  | continueStatement (span : SourceSpan)
  | guardStatement (span : SourceSpan) (condition : Expression name) (block : List (Statement name))
  | blockStatement (span : SourceSpan) (block : List (Statement name))
  | expressionStatement (span : SourceSpan) (value : Expression name) (terminated : Bool)

inductive Expression (name : Type)
  | nameExpression (span : SourceSpan) (target : name) (annotated : Ty)
  | literalExpression (span : SourceSpan) (literal : Literal) (annotated : Ty)
  | memberAccessExpression (span : SourceSpan) (receiver : Expression name) (member : Identifier) (annotated : Ty)
  | methodReferenceExpression (span : SourceSpan) (receiver : Expression name) (member : Identifier)
      (annotated : Ty)
  | callExpression (span : SourceSpan) (callee : Expression name) (arguments : List (Expression name))
      (annotated : Ty)
  | unaryExpression (span : SourceSpan) (operator : UnaryOperator) (operand : Expression name) (annotated : Ty)
  | binaryExpression (span : SourceSpan) (operator : BinaryOperator) (left right : Expression name) (annotated : Ty)
  | isPatternExpression (span : SourceSpan) (subject : Expression name) (pattern : Pattern) (annotated : Ty)
  | conditionalExpression (span : SourceSpan) (condition first second : Expression name) (annotated : Ty)
  | coalesceExpression (span : SourceSpan) (left fallback : Expression name) (annotated : Ty)
  | assignmentExpression (span : SourceSpan) (operator : Option BinaryOperator) (target : name)
      (value : Expression name) (annotated : Ty)
  | incrementExpression (span : SourceSpan) (isPrefixForm : Bool) (target : name) (annotated : Ty)
  | loopExpression (span : SourceSpan) (loop : Statement name) (annotated : Ty)
  | blockExpression (span : SourceSpan) (block : List (Statement name)) (annotated : Ty)
  | matchExpression (span : SourceSpan) (subjects : List (Expression name)) (arms : List (MatchArm name))
      (annotated : Ty)
  | callableExpression (span : SourceSpan) (explicit : Bool) (captures : List (Capture name))
      (parameters : List (Parameter name)) (body : CallableBody name) (annotated : Ty)

/-- One arm of a `match`: a pattern for each subject, a guard that may be absent, and the body. -/
inductive MatchArm (name : Type)
  | matchArm (patterns : List (MatchPattern name)) (guard : Option (Expression name)) (body : Expression name)

/-- Captured binding with an initializer that may be absent. -/
inductive Capture (name : Type)
  | capture (span : SourceSpan) (mode : CaptureMode) (target : name) (annotated : Ty)
      (initializer : Option (Expression name))

inductive CallableBody (name : Type)
  | callableExpressionBody (expression : Expression name)
  | callableBlockBody (block : List (Statement name))

end

section Arms

variable {name : Type}

def matchArmPatterns : MatchArm name → List (MatchPattern name)
  | .matchArm patterns _ _ => patterns

def matchArmGuard : MatchArm name → Option (Expression name)
  | .matchArm _ guard _ => guard

def matchArmBody : MatchArm name → Expression name
  | .matchArm _ _ body => body

end Arms

/-- The type of a classic enum: its name under a reserved root, the underlying type and the member values. -/
def enumType (name : Identifier) (underlying : Ty) (values : List Int) : Ty :=
  .namedType ["enum", name] (.typeTemplateArgument underlying ::
    values.map fun value => .valueTemplateArgument (.integerTemplateValue value))

/-- The integer of a value argument. -/
def integerArgument : TemplateArgument → Option Int
  | .valueTemplateArgument (.integerTemplateValue value) => some value
  | _ => none

/-- The distinct member values of an enum type, and nothing for any other type. -/
def enumMemberValues : Ty → Option (List Int)
  | .namedType ["enum", _] (.typeTemplateArgument _ :: values) => some (values.filterMap integerArgument)
  | _ => none

end Tala.Syntax
