import Tala.Library.SortedMap
import Tala.Syntax.Declaration

/-!
# `Frontend.Freshen` — new identities for a cloned declaration

A specialization is a copy of a typed declaration, and a copy must not keep the symbols of its source. One
traversal in the order of evaluation gives every definition it meets the next free symbol, remembers it, and
replaces every later reference; the names of the members of a type are reserved before any of its members is
traversed. Nested templates and enums are left as they are.

`declarationSymbols` is the inventory of all symbols of a declaration, from which the first free symbol of a
program is computed.
-/

namespace Tala.Frontend

open Tala.Library Tala.Syntax

/-! ## State -/

structure FreshState where
  freshNext : Int
  freshMap : SortedMap Int ResolvedName

abbrev Fresh := StateM FreshState

/-- A definition seen before keeps what it was given. -/
def freshDefinition (original : ResolvedName) : Fresh ResolvedName := fun state =>
  match state.freshMap.find original.resolvedSymbol with
  | some existing => (existing, state)
  | none =>
      let replacement : ResolvedName := ⟨state.freshNext, original.resolvedSpelling⟩
      (replacement, ⟨state.freshNext + 1, state.freshMap.insert original.resolvedSymbol replacement⟩)

def freshReference (original : ResolvedName) : Fresh ResolvedName := fun state =>
  ((state.freshMap.find original.resolvedSymbol).getD original, state)

/-! ## Types and patterns -/

def freshValue : TemplateValue → Fresh TemplateValue
  | .templateValueParameter name => do
      let closedName ← freshReference name
      pure (.templateValueParameter closedName)
  | value => pure value

mutual

def freshType : Ty → Fresh Ty
  | .namedType name arguments => do
      let closedArguments ← freshArguments arguments
      pure (.namedType name closedArguments)
  | .functionType parameters result => do
      let closedParameters ← freshTypes parameters
      let closedResult ← freshType result
      pure (.functionType closedParameters closedResult)
  | .typeVariable name => do
      let closedName ← freshReference name
      pure (.typeVariable closedName)
  | .errorType => pure .errorType

def freshTypes : List Ty → Fresh (List Ty)
  | [] => pure []
  | valueType :: remaining => do
      let closedType ← freshType valueType
      let closedTypes ← freshTypes remaining
      pure (closedType :: closedTypes)

def freshArgument : TemplateArgument → Fresh TemplateArgument
  | .typeTemplateArgument valueType => do
      let closedType ← freshType valueType
      pure (.typeTemplateArgument closedType)
  | .valueTemplateArgument value => do
      let closedValue ← freshValue value
      pure (.valueTemplateArgument closedValue)

def freshArguments : List TemplateArgument → Fresh (List TemplateArgument)
  | [] => pure []
  | argument :: remaining => do
      let closedArgument ← freshArgument argument
      let closedArguments ← freshArguments remaining
      pure (closedArgument :: closedArguments)

end

def freshPattern : Pattern → Fresh Pattern
  | .wildcardPattern annotated => do
      let closedType ← freshType annotated
      pure (.wildcardPattern closedType)
  | .nullPattern annotated => do
      let closedType ← freshType annotated
      pure (.nullPattern closedType)
  | .literalPattern literal annotated => do
      let closedType ← freshType annotated
      pure (.literalPattern literal closedType)
  | .typePattern annotated => do
      let closedType ← freshType annotated
      pure (.typePattern closedType)
  | .relationalPattern operator literal annotated => do
      let closedType ← freshType annotated
      pure (.relationalPattern operator literal closedType)
  | .notPattern nested annotated => do
      let closedNested ← freshPattern nested
      let closedType ← freshType annotated
      pure (.notPattern closedNested closedType)
  | .andPattern left right annotated => do
      let closedLeft ← freshPattern left
      let closedRight ← freshPattern right
      let closedType ← freshType annotated
      pure (.andPattern closedLeft closedRight closedType)
  | .orPattern left right annotated => do
      let closedLeft ← freshPattern left
      let closedRight ← freshPattern right
      let closedType ← freshType annotated
      pure (.orPattern closedLeft closedRight closedType)

def freshMatchPattern : MatchPattern ResolvedName → Fresh (MatchPattern ResolvedName)
  | .matchWildcardPattern annotated => do
      let closedType ← freshType annotated
      pure (.matchWildcardPattern closedType)
  | .matchLiteralPattern literal annotated => do
      let closedType ← freshType annotated
      pure (.matchLiteralPattern literal closedType)
  | .matchNullPattern annotated => do
      let closedType ← freshType annotated
      pure (.matchNullPattern closedType)
  | .matchTypePattern none annotated => do
      let closedType ← freshType annotated
      pure (.matchTypePattern none closedType)
  | .matchTypePattern (some name) annotated => do
      let closedName ← freshDefinition name
      let closedType ← freshType annotated
      pure (.matchTypePattern (some closedName) closedType)
  | .matchCasePattern member annotated => do
      let closedType ← freshType annotated
      pure (.matchCasePattern member closedType)

def freshMatchPatterns : List (MatchPattern ResolvedName) → Fresh (List (MatchPattern ResolvedName))
  | [] => pure []
  | pattern :: remaining => do
      let closedPattern ← freshMatchPattern pattern
      let closedPatterns ← freshMatchPatterns remaining
      pure (closedPattern :: closedPatterns)

def freshParameterDefinition : Parameter ResolvedName → Fresh (Parameter ResolvedName)
  | ⟨name, annotated⟩ => do
      let closedName ← freshDefinition name
      let closedType ← freshType annotated
      pure ⟨closedName, closedType⟩

def freshParameters : List (Parameter ResolvedName) → Fresh (List (Parameter ResolvedName))
  | [] => pure []
  | parameter :: remaining => do
      let closedParameter ← freshParameterDefinition parameter
      let closedParameters ← freshParameters remaining
      pure (closedParameter :: closedParameters)

/-! ## Statements and expressions -/

mutual

def freshBlock : List (Statement ResolvedName) → Fresh (List (Statement ResolvedName))
  | [] => pure []
  | statement :: remaining => do
      let closedStatement ← freshStatement statement
      let closedStatements ← freshBlock remaining
      pure (closedStatement :: closedStatements)

def freshElse : Option (List (Statement ResolvedName)) → Fresh (Option (List (Statement ResolvedName)))
  | none => pure none
  | some block => do
      let closedBlock ← freshBlock block
      pure (some closedBlock)

def freshInitializer : Option (Statement ResolvedName) → Fresh (Option (Statement ResolvedName))
  | none => pure none
  | some statement => do
      let closedStatement ← freshStatement statement
      pure (some closedStatement)

def freshStatement : Statement ResolvedName → Fresh (Statement ResolvedName)
  -- an initializer belongs to the surrounding scope
  | .bindingStatement span kind name annotated value => do
      let closedValue ← freshExpression value
      let closedName ← freshDefinition name
      let closedType ← freshType annotated
      pure (.bindingStatement span kind closedName closedType closedValue)
  | .assignmentStatement span name annotated value => do
      let closedName ← freshReference name
      let closedType ← freshType annotated
      let closedValue ← freshExpression value
      pure (.assignmentStatement span closedName closedType closedValue)
  | .returnStatement span value => do
      let closedValue ← freshOptional value
      pure (.returnStatement span closedValue)
  | .ifStatement span condition whenTrue whenFalse => do
      let closedCondition ← freshExpression condition
      let closedTrue ← freshBlock whenTrue
      let closedFalse ← freshElse whenFalse
      pure (.ifStatement span closedCondition closedTrue closedFalse)
  | .whileStatement span condition body => do
      let closedCondition ← freshExpression condition
      let closedBody ← freshBlock body
      pure (.whileStatement span closedCondition closedBody)
  | .doWhileStatement span body condition => do
      let closedBody ← freshBlock body
      let closedCondition ← freshExpression condition
      pure (.doWhileStatement span closedBody closedCondition)
  | .forStatement span initializer condition updates body => do
      let closedInitializer ← freshInitializer initializer
      let closedCondition ← freshOptional condition
      let closedUpdates ← freshBlock updates
      let closedBody ← freshBlock body
      pure (.forStatement span closedInitializer closedCondition closedUpdates closedBody)
  | .forEachStatement span kind name annotated source body => do
      let closedSource ← freshExpression source
      let closedName ← freshDefinition name
      let closedType ← freshType annotated
      let closedBody ← freshBlock body
      pure (.forEachStatement span kind closedName closedType closedSource closedBody)
  | .incrementStatement span name annotated => do
      let closedName ← freshReference name
      let closedType ← freshType annotated
      pure (.incrementStatement span closedName closedType)
  | .compoundAssignmentStatement span operator name annotated value => do
      let closedName ← freshReference name
      let closedType ← freshType annotated
      let closedValue ← freshExpression value
      pure (.compoundAssignmentStatement span operator closedName closedType closedValue)
  | .discardStatement span value => do
      let closedValue ← freshExpression value
      pure (.discardStatement span closedValue)
  | .breakStatement span value => do
      let closedValue ← freshOptional value
      pure (.breakStatement span closedValue)
  | .continueStatement span => pure (.continueStatement span)
  | .guardStatement span condition block => do
      let closedCondition ← freshExpression condition
      let closedBlock ← freshBlock block
      pure (.guardStatement span closedCondition closedBlock)
  | .blockStatement span block => do
      let closedBlock ← freshBlock block
      pure (.blockStatement span closedBlock)
  | .expressionStatement span value terminated => do
      let closedValue ← freshExpression value
      pure (.expressionStatement span closedValue terminated)

def freshOptional : Option (Expression ResolvedName) → Fresh (Option (Expression ResolvedName))
  | none => pure none
  | some expression => do
      let closedExpression ← freshExpression expression
      pure (some closedExpression)

def freshExpressions : List (Expression ResolvedName) → Fresh (List (Expression ResolvedName))
  | [] => pure []
  | expression :: remaining => do
      let closedExpression ← freshExpression expression
      let closedExpressions ← freshExpressions remaining
      pure (closedExpression :: closedExpressions)

def freshExpression : Expression ResolvedName → Fresh (Expression ResolvedName)
  | .nameExpression span name annotated => do
      let closedName ← freshReference name
      let closedType ← freshType annotated
      pure (.nameExpression span closedName closedType)
  | .literalExpression span literal annotated => do
      let closedType ← freshType annotated
      pure (.literalExpression span literal closedType)
  | .memberAccessExpression span receiver member annotated => do
      let closedReceiver ← freshExpression receiver
      let closedType ← freshType annotated
      pure (.memberAccessExpression span closedReceiver member closedType)
  | .methodReferenceExpression span receiver member annotated => do
      let closedReceiver ← freshExpression receiver
      let closedType ← freshType annotated
      pure (.methodReferenceExpression span closedReceiver member closedType)
  | .callExpression span callee arguments annotated => do
      let closedCallee ← freshExpression callee
      let closedArguments ← freshExpressions arguments
      let closedType ← freshType annotated
      pure (.callExpression span closedCallee closedArguments closedType)
  | .unaryExpression span operator value annotated => do
      let closedValue ← freshExpression value
      let closedType ← freshType annotated
      pure (.unaryExpression span operator closedValue closedType)
  | .binaryExpression span operator left right annotated => do
      let closedLeft ← freshExpression left
      let closedRight ← freshExpression right
      let closedType ← freshType annotated
      pure (.binaryExpression span operator closedLeft closedRight closedType)
  | .isPatternExpression span subject pattern annotated => do
      let closedSubject ← freshExpression subject
      let closedPattern ← freshPattern pattern
      let closedType ← freshType annotated
      pure (.isPatternExpression span closedSubject closedPattern closedType)
  | .conditionalExpression span condition first second annotated => do
      let closedCondition ← freshExpression condition
      let closedFirst ← freshExpression first
      let closedSecond ← freshExpression second
      let closedType ← freshType annotated
      pure (.conditionalExpression span closedCondition closedFirst closedSecond closedType)
  | .coalesceExpression span left fallback annotated => do
      let closedLeft ← freshExpression left
      let closedFallback ← freshExpression fallback
      let closedType ← freshType annotated
      pure (.coalesceExpression span closedLeft closedFallback closedType)
  | .assignmentExpression span operator name value annotated => do
      let closedName ← freshReference name
      let closedValue ← freshExpression value
      let closedType ← freshType annotated
      pure (.assignmentExpression span operator closedName closedValue closedType)
  | .incrementExpression span isPrefixForm name annotated => do
      let closedName ← freshReference name
      let closedType ← freshType annotated
      pure (.incrementExpression span isPrefixForm closedName closedType)
  | .loopExpression span loop annotated => do
      let closedLoop ← freshStatement loop
      let closedType ← freshType annotated
      pure (.loopExpression span closedLoop closedType)
  | .blockExpression span block annotated => do
      let closedBlock ← freshBlock block
      let closedType ← freshType annotated
      pure (.blockExpression span closedBlock closedType)
  -- an arm defines what its patterns bind before its guard and its body
  | .matchExpression span subjects arms annotated => do
      let closedSubjects ← freshExpressions subjects
      let closedArms ← freshMatchArms arms
      let closedType ← freshType annotated
      pure (.matchExpression span closedSubjects closedArms closedType)
  | .callableExpression span explicit captures parameters body annotated => do
      let closedCaptures ← freshCaptures captures
      let closedParameters ← freshParameters parameters
      let closedBody ← freshCallableBody body
      let closedType ← freshType annotated
      pure (.callableExpression span explicit closedCaptures closedParameters closedBody closedType)

def freshMatchArm : MatchArm ResolvedName → Fresh (MatchArm ResolvedName)
  | .matchArm patterns guard body => do
      let closedPatterns ← freshMatchPatterns patterns
      let closedGuard ← freshOptional guard
      let closedBody ← freshExpression body
      pure (.matchArm closedPatterns closedGuard closedBody)

def freshMatchArms : List (MatchArm ResolvedName) → Fresh (List (MatchArm ResolvedName))
  | [] => pure []
  | arm :: remaining => do
      let closedArm ← freshMatchArm arm
      let closedArms ← freshMatchArms remaining
      pure (closedArm :: closedArms)

def freshCaptureDefinition : Capture ResolvedName → Fresh (Capture ResolvedName)
  | .capture span mode name annotated initializer => do
      let closedInitializer ← freshOptional initializer
      let closedName ← freshDefinition name
      let closedType ← freshType annotated
      pure (.capture span mode closedName closedType closedInitializer)

def freshCaptures : List (Capture ResolvedName) → Fresh (List (Capture ResolvedName))
  | [] => pure []
  | capture :: remaining => do
      let closedCapture ← freshCaptureDefinition capture
      let closedCaptures ← freshCaptures remaining
      pure (closedCapture :: closedCaptures)

def freshCallableBody : CallableBody ResolvedName → Fresh (CallableBody ResolvedName)
  | .callableExpressionBody expression => do
      let closedExpression ← freshExpression expression
      pure (.callableExpressionBody closedExpression)
  | .callableBlockBody block => do
      let closedBlock ← freshBlock block
      pure (.callableBlockBody closedBlock)

end

/-! ## Declarations -/

/-- The definition of an immediate member, before any body is traversed. -/
def reserveDeclarationName : Declaration ResolvedName → Fresh Unit
  | .typeDeclaration _ name _ _ => do
      let _ ← freshDefinition name
      pure ()
  | .functionDeclaration _ name _ _ _ _ _ _ => do
      let _ ← freshDefinition name
      pure ()
  | .templateTypeDeclaration _ _ _ _ _ => pure ()
  | .enumDeclaration _ _ _ _ => pure ()

def reserveDeclarationNames : List (Declaration ResolvedName) → Fresh Unit
  | [] => pure ()
  | member :: remaining => do
      let _ ← reserveDeclarationName member
      reserveDeclarationNames remaining

mutual

def freshDeclaration : Declaration ResolvedName → Fresh (Declaration ResolvedName)
  | .typeDeclaration span name annotated members => do
      let closedName ← freshDefinition name
      let closedType ← freshType annotated
      let _ ← reserveDeclarationNames members
      let closedMembers ← freshDeclarations members
      pure (.typeDeclaration span closedName closedType closedMembers)
  | .functionDeclaration span name annotated returnSyntax parameters body isStatic access => do
      let closedName ← freshDefinition name
      let closedParameters ← freshParameters parameters
      let closedType ← freshType annotated
      let closedBody ← freshBlock body
      pure (.functionDeclaration span closedName closedType returnSyntax closedParameters closedBody isStatic access)
  -- a nested template has an environment of its own
  | .templateTypeDeclaration span name annotated parameters members =>
      pure (.templateTypeDeclaration span name annotated parameters members)
  | .enumDeclaration span name annotated underlying => pure (.enumDeclaration span name annotated underlying)

def freshDeclarations : List (Declaration ResolvedName) → Fresh (List (Declaration ResolvedName))
  | [] => pure []
  | member :: remaining => do
      let closedMember ← freshDeclaration member
      let closedMembers ← freshDeclarations remaining
      pure (closedMember :: closedMembers)

end

structure FreshenResult where
  freshenedDeclaration : Declaration ResolvedName
  /-- Old and new identity of every definition, ascending in the old one. -/
  freshenedSymbols : List (Int × Int)
  nextFreshSymbol : Int

def freshenDeclaration (first : Int) (declaration : Declaration ResolvedName) : FreshenResult :=
  let (closed, finalState) := freshDeclaration declaration ⟨max 1 first, SortedMap.empty⟩
  ⟨closed, finalState.freshMap.entries.map fun entry => (entry.1, entry.2.resolvedSymbol), finalState.freshNext⟩

/-! ## The inventory of symbols -/

def nameSymbol (name : ResolvedName) : Int := name.resolvedSymbol

mutual

def typeSymbols : Ty → List Int
  | .namedType _ arguments => argumentsSymbols arguments
  | .functionType parameters result => typeSymbols result ++ typesSymbols parameters
  | .typeVariable name => [nameSymbol name]
  | .errorType => []

def typesSymbols : List Ty → List Int
  | [] => []
  | valueType :: remaining => typeSymbols valueType ++ typesSymbols remaining

def argumentSymbols : TemplateArgument → List Int
  | .typeTemplateArgument valueType => typeSymbols valueType
  | .valueTemplateArgument (.templateValueParameter name) => [nameSymbol name]
  | .valueTemplateArgument _ => []

def argumentsSymbols : List TemplateArgument → List Int
  | [] => []
  | argument :: remaining => argumentSymbols argument ++ argumentsSymbols remaining

end

def patternSymbols : Pattern → List Int
  | .wildcardPattern annotated => typeSymbols annotated
  | .nullPattern annotated => typeSymbols annotated
  | .literalPattern _ annotated => typeSymbols annotated
  | .typePattern annotated => typeSymbols annotated
  | .relationalPattern _ _ annotated => typeSymbols annotated
  | .notPattern nested annotated => patternSymbols nested ++ typeSymbols annotated
  | .andPattern left right annotated => patternSymbols left ++ patternSymbols right ++ typeSymbols annotated
  | .orPattern left right annotated => patternSymbols left ++ patternSymbols right ++ typeSymbols annotated

def matchPatternBinding : MatchPattern ResolvedName → Option ResolvedName
  | .matchTypePattern binding _ => binding
  | _ => none

/-- The symbols of the patterns of an arm. -/
def matchArmSymbols (arm : MatchArm ResolvedName) : List Int :=
  (matchArmPatterns arm).flatMap fun pattern =>
    ((matchPatternBinding pattern).map nameSymbol).toList ++ typeSymbols ( matchPatternAnnotation pattern)

def parameterSymbols : Parameter ResolvedName → List Int
  | ⟨name, annotated⟩ => nameSymbol name :: typeSymbols annotated

mutual

def blockSymbols : List (Statement ResolvedName) → List Int
  | [] => []
  | statement :: remaining => statementSymbols statement ++ blockSymbols remaining

def elseSymbols : Option (List (Statement ResolvedName)) → List Int
  | none => []
  | some block => blockSymbols block

def initializerSymbols : Option (Statement ResolvedName) → List Int
  | none => []
  | some statement => statementSymbols statement

def statementSymbols : Statement ResolvedName → List Int
  | .bindingStatement _ _ name annotated value =>
      nameSymbol name :: typeSymbols annotated ++ expressionSymbols value
  | .assignmentStatement _ name annotated value =>
      nameSymbol name :: typeSymbols annotated ++ expressionSymbols value
  | .returnStatement _ value => optionalSymbols value
  | .ifStatement _ condition whenTrue whenFalse =>
      expressionSymbols condition ++ blockSymbols whenTrue ++ elseSymbols whenFalse
  | .whileStatement _ condition body => expressionSymbols condition ++ blockSymbols body
  | .doWhileStatement _ body condition => blockSymbols body ++ expressionSymbols condition
  | .forStatement _ initializer condition updates body =>
      initializerSymbols initializer ++ optionalSymbols condition ++ blockSymbols updates ++ blockSymbols body
  | .forEachStatement _ _ name annotated source body =>
      nameSymbol name :: typeSymbols annotated ++ expressionSymbols source ++ blockSymbols body
  | .incrementStatement _ name annotated => nameSymbol name :: typeSymbols annotated
  | .compoundAssignmentStatement _ _ name annotated value =>
      nameSymbol name :: typeSymbols annotated ++ expressionSymbols value
  | .discardStatement _ value => expressionSymbols value
  | .breakStatement _ value => optionalSymbols value
  | .continueStatement _ => []
  | .guardStatement _ condition block => expressionSymbols condition ++ blockSymbols block
  | .blockStatement _ block => blockSymbols block
  | .expressionStatement _ value _ => expressionSymbols value

def optionalSymbols : Option (Expression ResolvedName) → List Int
  | none => []
  | some expression => expressionSymbols expression

def expressionsSymbols : List (Expression ResolvedName) → List Int
  | [] => []
  | expression :: remaining => expressionSymbols expression ++ expressionsSymbols remaining

def expressionSymbols : Expression ResolvedName → List Int
  | .nameExpression _ name annotated => nameSymbol name :: typeSymbols annotated
  | .literalExpression _ _ annotated => typeSymbols annotated
  | .memberAccessExpression _ receiver _ annotated => expressionSymbols receiver ++ typeSymbols annotated
  | .methodReferenceExpression _ receiver _ annotated => expressionSymbols receiver ++ typeSymbols annotated
  | .callExpression _ callee arguments annotated =>
      expressionSymbols callee ++ expressionsSymbols arguments ++ typeSymbols annotated
  | .unaryExpression _ _ value annotated => expressionSymbols value ++ typeSymbols annotated
  | .binaryExpression _ _ left right annotated =>
      expressionSymbols left ++ expressionSymbols right ++ typeSymbols annotated
  | .isPatternExpression _ subject pattern annotated =>
      expressionSymbols subject ++ patternSymbols pattern ++ typeSymbols annotated
  | .conditionalExpression _ condition first second annotated =>
      expressionSymbols condition ++ expressionSymbols first ++ expressionSymbols second ++ typeSymbols annotated
  | .coalesceExpression _ left fallback annotated =>
      expressionSymbols left ++ expressionSymbols fallback ++ typeSymbols annotated
  | .assignmentExpression _ _ name value annotated =>
      nameSymbol name :: expressionSymbols value ++ typeSymbols annotated
  | .incrementExpression _ _ name annotated => nameSymbol name :: typeSymbols annotated
  | .loopExpression _ loop annotated => statementSymbols loop ++ typeSymbols annotated
  | .blockExpression _ block annotated => blockSymbols block ++ typeSymbols annotated
  | .matchExpression _ subjects arms annotated =>
      expressionsSymbols subjects ++ armsExpressionsSymbols arms ++ arms.flatMap matchArmSymbols
        ++ typeSymbols annotated
  | .callableExpression _ _ captures parameters body annotated =>
      capturesSymbols captures ++ parameters.flatMap parameterSymbols ++ callableBodySymbols body
        ++ typeSymbols annotated

/-- The symbols of the guard and the body of each arm. -/
def armsExpressionsSymbols : List (MatchArm ResolvedName) → List Int
  | [] => []
  | .matchArm _ guard body :: remaining =>
      optionalSymbols guard ++ expressionSymbols body ++ armsExpressionsSymbols remaining

def captureSymbols : Capture ResolvedName → List Int
  | .capture _ _ name annotated initializer =>
      nameSymbol name :: typeSymbols annotated ++ optionalSymbols initializer

def capturesSymbols : List (Capture ResolvedName) → List Int
  | [] => []
  | capture :: remaining => captureSymbols capture ++ capturesSymbols remaining

def callableBodySymbols : CallableBody ResolvedName → List Int
  | .callableExpressionBody expression => expressionSymbols expression
  | .callableBlockBody block => blockSymbols block

end

def templateParameterSymbols (parameter : TemplateParameter ResolvedName) : List Int :=
  nameSymbol parameter.templateParameterName :: typeSymbols ( TemplateParameter.templateParameterAnnotation parameter)

mutual

def declarationSymbols : Declaration ResolvedName → List Int
  | .typeDeclaration _ name annotated members =>
      nameSymbol name :: typeSymbols annotated ++ declarationsSymbols members
  | .functionDeclaration _ name annotated _ parameters body _ _ =>
      nameSymbol name :: typeSymbols annotated ++ parameters.flatMap parameterSymbols ++ blockSymbols body
  | .templateTypeDeclaration _ name annotated parameters members =>
      nameSymbol name :: typeSymbols annotated ++ parameters.flatMap templateParameterSymbols
        ++ declarationsSymbols members
  | .enumDeclaration _ name annotated _ => nameSymbol name :: typeSymbols annotated

def declarationsSymbols : List (Declaration ResolvedName) → List Int
  | [] => []
  | declaration :: remaining => declarationSymbols declaration ++ declarationsSymbols remaining

end

def maximumSymbolInTypedAST (tree : SyntaxTree ResolvedName) : Int :=
  (declarationsSymbols tree.syntaxDeclarations).foldr max 0

end Tala.Frontend
