import Tala.Frontend.Freshen

/-!
# `Frontend.FreshenUses` — the names of a declaration

`declarationUses` lists the names a copy renews or follows, in the order of evaluation: a binder is `defined`,
any other occurrence `referred`. A nested template and an enum have an environment of their own and no uses.
`renameDeclaration` changes exactly these names.
-/

namespace Tala.Frontend

open Tala.Syntax

/-- An occurrence of a name. -/
inductive NameUse
  | defined (name : ResolvedName)
  | referred (name : ResolvedName)

def NameUse.name : NameUse → ResolvedName
  | .defined name => name
  | .referred name => name

def NameUse.map (ρ : ResolvedName → ResolvedName) : NameUse → NameUse
  | .defined name => .defined (ρ name)
  | .referred name => .referred (ρ name)

@[simp] theorem NameUse.name_map (ρ : ResolvedName → ResolvedName) (use : NameUse) :
    (use.map ρ).name = ρ use.name := by
  cases use <;> rfl

/-! ## Uses -/

def valueUses : TemplateValue → List NameUse
  | .templateValueParameter name => [.referred name]
  | _ => []

mutual

def typeUses : Ty → List NameUse
  | .namedType _ arguments => argumentsUses arguments
  | .functionType parameters result => typesUses parameters ++ typeUses result
  | .typeVariable name => [.referred name]
  | .errorType => []

def typesUses : List Ty → List NameUse
  | [] => []
  | valueType :: remaining => typeUses valueType ++ typesUses remaining

def argumentUses : TemplateArgument → List NameUse
  | .typeTemplateArgument valueType => typeUses valueType
  | .valueTemplateArgument value => valueUses value

def argumentsUses : List TemplateArgument → List NameUse
  | [] => []
  | argument :: remaining => argumentUses argument ++ argumentsUses remaining

end

def patternUses : Pattern → List NameUse
  | .wildcardPattern annotated => typeUses annotated
  | .nullPattern annotated => typeUses annotated
  | .literalPattern _ annotated => typeUses annotated
  | .typePattern annotated => typeUses annotated
  | .relationalPattern _ _ annotated => typeUses annotated
  | .notPattern nested annotated => patternUses nested ++ typeUses annotated
  | .andPattern left right annotated => patternUses left ++ (patternUses right ++ typeUses annotated)
  | .orPattern left right annotated => patternUses left ++ (patternUses right ++ typeUses annotated)

def matchPatternUses : MatchPattern ResolvedName → List NameUse
  | .matchWildcardPattern annotated => typeUses annotated
  | .matchLiteralPattern _ annotated => typeUses annotated
  | .matchNullPattern annotated => typeUses annotated
  | .matchTypePattern none annotated => typeUses annotated
  | .matchTypePattern (some name) annotated => .defined name :: typeUses annotated
  | .matchCasePattern _ annotated => typeUses annotated

def matchPatternsUses : List (MatchPattern ResolvedName) → List NameUse
  | [] => []
  | pattern :: remaining => matchPatternUses pattern ++ matchPatternsUses remaining

def parameterUses : Parameter ResolvedName → List NameUse
  | ⟨name, annotated⟩ => .defined name :: typeUses annotated

def parametersUses : List (Parameter ResolvedName) → List NameUse
  | [] => []
  | parameter :: remaining => parameterUses parameter ++ parametersUses remaining

mutual

def blockUses : List (Statement ResolvedName) → List NameUse
  | [] => []
  | statement :: remaining => statementUses statement ++ blockUses remaining

def elseUses : Option (List (Statement ResolvedName)) → List NameUse
  | none => []
  | some block => blockUses block

def initializerUses : Option (Statement ResolvedName) → List NameUse
  | none => []
  | some statement => statementUses statement

def statementUses : Statement ResolvedName → List NameUse
  | .bindingStatement _ _ name annotated value => expressionUses value ++ (.defined name :: typeUses annotated)
  | .assignmentStatement _ name annotated value => .referred name :: (typeUses annotated ++ expressionUses value)
  | .returnStatement _ value => optionalUses value
  | .ifStatement _ condition whenTrue whenFalse =>
      expressionUses condition ++ (blockUses whenTrue ++ elseUses whenFalse)
  | .whileStatement _ condition body => expressionUses condition ++ blockUses body
  | .doWhileStatement _ body condition => blockUses body ++ expressionUses condition
  | .forStatement _ initializer condition updates body =>
      initializerUses initializer ++ (optionalUses condition ++ (blockUses updates ++ blockUses body))
  | .forEachStatement _ _ name annotated source body =>
      expressionUses source ++ (.defined name :: (typeUses annotated ++ blockUses body))
  | .incrementStatement _ name annotated => .referred name :: typeUses annotated
  | .compoundAssignmentStatement _ _ name annotated value =>
      .referred name :: (typeUses annotated ++ expressionUses value)
  | .discardStatement _ value => expressionUses value
  | .breakStatement _ value => optionalUses value
  | .continueStatement _ => []
  | .guardStatement _ condition block => expressionUses condition ++ blockUses block
  | .blockStatement _ block => blockUses block
  | .expressionStatement _ value _ => expressionUses value

def optionalUses : Option (Expression ResolvedName) → List NameUse
  | none => []
  | some expression => expressionUses expression

def expressionsUses : List (Expression ResolvedName) → List NameUse
  | [] => []
  | expression :: remaining => expressionUses expression ++ expressionsUses remaining

def expressionUses : Expression ResolvedName → List NameUse
  | .nameExpression _ name annotated => .referred name :: typeUses annotated
  | .literalExpression _ _ annotated => typeUses annotated
  | .memberAccessExpression _ receiver _ annotated => expressionUses receiver ++ typeUses annotated
  | .methodReferenceExpression _ receiver _ annotated => expressionUses receiver ++ typeUses annotated
  | .callExpression _ callee arguments annotated =>
      expressionUses callee ++ (expressionsUses arguments ++ typeUses annotated)
  | .unaryExpression _ _ value annotated => expressionUses value ++ typeUses annotated
  | .binaryExpression _ _ left right annotated =>
      expressionUses left ++ (expressionUses right ++ typeUses annotated)
  | .isPatternExpression _ subject pattern annotated =>
      expressionUses subject ++ (patternUses pattern ++ typeUses annotated)
  | .conditionalExpression _ condition first second annotated =>
      expressionUses condition ++ (expressionUses first ++ (expressionUses second ++ typeUses annotated))
  | .coalesceExpression _ left fallback annotated =>
      expressionUses left ++ (expressionUses fallback ++ typeUses annotated)
  | .assignmentExpression _ _ name value annotated =>
      .referred name :: (expressionUses value ++ typeUses annotated)
  | .incrementExpression _ _ name annotated => .referred name :: typeUses annotated
  | .loopExpression _ loop annotated => statementUses loop ++ typeUses annotated
  | .blockExpression _ block annotated => blockUses block ++ typeUses annotated
  | .matchExpression _ subjects arms annotated =>
      expressionsUses subjects ++ (matchArmsUses arms ++ typeUses annotated)
  | .callableExpression _ _ captures parameters body annotated =>
      capturesUses captures ++ (parametersUses parameters ++ (callableBodyUses body ++ typeUses annotated))

def matchArmUses : MatchArm ResolvedName → List NameUse
  | .matchArm patterns guard body => matchPatternsUses patterns ++ (optionalUses guard ++ expressionUses body)

def matchArmsUses : List (MatchArm ResolvedName) → List NameUse
  | [] => []
  | arm :: remaining => matchArmUses arm ++ matchArmsUses remaining

def captureUses : Capture ResolvedName → List NameUse
  | .capture _ _ name annotated initializer => optionalUses initializer ++ (.defined name :: typeUses annotated)

def capturesUses : List (Capture ResolvedName) → List NameUse
  | [] => []
  | capture :: remaining => captureUses capture ++ capturesUses remaining

def callableBodyUses : CallableBody ResolvedName → List NameUse
  | .callableExpressionBody expression => expressionUses expression
  | .callableBlockBody block => blockUses block

end

/-- The names of the members of a type stand before the members. -/
def memberNames : List (Declaration ResolvedName) → List NameUse
  | [] => []
  | .typeDeclaration _ name _ _ :: remaining => .defined name :: memberNames remaining
  | .functionDeclaration _ name _ _ _ _ _ _ :: remaining => .defined name :: memberNames remaining
  | .templateTypeDeclaration _ _ _ _ _ :: remaining => memberNames remaining
  | .enumDeclaration _ _ _ _ :: remaining => memberNames remaining

mutual

def declarationUses : Declaration ResolvedName → List NameUse
  | .typeDeclaration _ name annotated members =>
      .defined name :: (typeUses annotated ++ (memberNames members ++ declarationsUses members))
  | .functionDeclaration _ name annotated _ parameters body _ _ =>
      .defined name :: (parametersUses parameters ++ (typeUses annotated ++ blockUses body))
  | .templateTypeDeclaration _ _ _ _ _ => []
  | .enumDeclaration _ _ _ _ => []

def declarationsUses : List (Declaration ResolvedName) → List NameUse
  | [] => []
  | member :: remaining => declarationUses member ++ declarationsUses remaining

end

/-! ## Renaming -/

section Rename

variable (ρ : ResolvedName → ResolvedName)

def renameValue : TemplateValue → TemplateValue
  | .templateValueParameter name => .templateValueParameter (ρ name)
  | value => value

mutual

def renameType : Ty → Ty
  | .namedType name arguments => .namedType name (renameArguments arguments)
  | .functionType parameters result => .functionType (renameTypes parameters) (renameType result)
  | .typeVariable name => .typeVariable (ρ name)
  | .errorType => .errorType

def renameTypes : List Ty → List Ty
  | [] => []
  | valueType :: remaining => renameType valueType :: renameTypes remaining

def renameArgument : TemplateArgument → TemplateArgument
  | .typeTemplateArgument valueType => .typeTemplateArgument (renameType valueType)
  | .valueTemplateArgument value => .valueTemplateArgument (renameValue ρ value)

def renameArguments : List TemplateArgument → List TemplateArgument
  | [] => []
  | argument :: remaining => renameArgument argument :: renameArguments remaining

end

def renamePattern : Pattern → Pattern
  | .wildcardPattern annotated => .wildcardPattern (renameType ρ annotated)
  | .nullPattern annotated => .nullPattern (renameType ρ annotated)
  | .literalPattern literal annotated => .literalPattern literal (renameType ρ annotated)
  | .typePattern annotated => .typePattern (renameType ρ annotated)
  | .relationalPattern operator literal annotated => .relationalPattern operator literal (renameType ρ annotated)
  | .notPattern nested annotated => .notPattern (renamePattern nested) (renameType ρ annotated)
  | .andPattern left right annotated =>
      .andPattern (renamePattern left) (renamePattern right) (renameType ρ annotated)
  | .orPattern left right annotated =>
      .orPattern (renamePattern left) (renamePattern right) (renameType ρ annotated)

def renameMatchPattern : MatchPattern ResolvedName → MatchPattern ResolvedName
  | .matchWildcardPattern annotated => .matchWildcardPattern (renameType ρ annotated)
  | .matchLiteralPattern literal annotated => .matchLiteralPattern literal (renameType ρ annotated)
  | .matchNullPattern annotated => .matchNullPattern (renameType ρ annotated)
  | .matchTypePattern none annotated => .matchTypePattern none (renameType ρ annotated)
  | .matchTypePattern (some name) annotated => .matchTypePattern (some (ρ name)) (renameType ρ annotated)
  | .matchCasePattern member annotated => .matchCasePattern member (renameType ρ annotated)

def renameMatchPatterns : List (MatchPattern ResolvedName) → List (MatchPattern ResolvedName)
  | [] => []
  | pattern :: remaining => renameMatchPattern ρ pattern :: renameMatchPatterns remaining

def renameParameter : Parameter ResolvedName → Parameter ResolvedName
  | ⟨name, annotated⟩ => ⟨ρ name, renameType ρ annotated⟩

def renameParameters : List (Parameter ResolvedName) → List (Parameter ResolvedName)
  | [] => []
  | parameter :: remaining => renameParameter ρ parameter :: renameParameters remaining

mutual

def renameBlock : List (Statement ResolvedName) → List (Statement ResolvedName)
  | [] => []
  | statement :: remaining => renameStatement statement :: renameBlock remaining

def renameElse : Option (List (Statement ResolvedName)) → Option (List (Statement ResolvedName))
  | none => none
  | some block => some (renameBlock block)

def renameInitializer : Option (Statement ResolvedName) → Option (Statement ResolvedName)
  | none => none
  | some statement => some (renameStatement statement)

def renameStatement : Statement ResolvedName → Statement ResolvedName
  | .bindingStatement span kind name annotated value =>
      .bindingStatement span kind (ρ name) (renameType ρ annotated) (renameExpression value)
  | .assignmentStatement span name annotated value =>
      .assignmentStatement span (ρ name) (renameType ρ annotated) (renameExpression value)
  | .returnStatement span value => .returnStatement span (renameOptional value)
  | .ifStatement span condition whenTrue whenFalse =>
      .ifStatement span (renameExpression condition) (renameBlock whenTrue) (renameElse whenFalse)
  | .whileStatement span condition body => .whileStatement span (renameExpression condition) (renameBlock body)
  | .doWhileStatement span body condition => .doWhileStatement span (renameBlock body) (renameExpression condition)
  | .forStatement span initializer condition updates body =>
      .forStatement span (renameInitializer initializer) (renameOptional condition) (renameBlock updates)
        (renameBlock body)
  | .forEachStatement span kind name annotated source body =>
      .forEachStatement span kind (ρ name) (renameType ρ annotated) (renameExpression source) (renameBlock body)
  | .incrementStatement span name annotated => .incrementStatement span (ρ name) (renameType ρ annotated)
  | .compoundAssignmentStatement span operator name annotated value =>
      .compoundAssignmentStatement span operator (ρ name) (renameType ρ annotated) (renameExpression value)
  | .discardStatement span value => .discardStatement span (renameExpression value)
  | .breakStatement span value => .breakStatement span (renameOptional value)
  | .continueStatement span => .continueStatement span
  | .guardStatement span condition block => .guardStatement span (renameExpression condition) (renameBlock block)
  | .blockStatement span block => .blockStatement span (renameBlock block)
  | .expressionStatement span value terminated => .expressionStatement span (renameExpression value) terminated

def renameOptional : Option (Expression ResolvedName) → Option (Expression ResolvedName)
  | none => none
  | some expression => some (renameExpression expression)

def renameExpressions : List (Expression ResolvedName) → List (Expression ResolvedName)
  | [] => []
  | expression :: remaining => renameExpression expression :: renameExpressions remaining

def renameExpression : Expression ResolvedName → Expression ResolvedName
  | .nameExpression span name annotated => .nameExpression span (ρ name) (renameType ρ annotated)
  | .literalExpression span literal annotated => .literalExpression span literal (renameType ρ annotated)
  | .memberAccessExpression span receiver member annotated =>
      .memberAccessExpression span (renameExpression receiver) member (renameType ρ annotated)
  | .methodReferenceExpression span receiver member annotated =>
      .methodReferenceExpression span (renameExpression receiver) member (renameType ρ annotated)
  | .callExpression span callee arguments annotated =>
      .callExpression span (renameExpression callee) (renameExpressions arguments) (renameType ρ annotated)
  | .unaryExpression span operator value annotated =>
      .unaryExpression span operator (renameExpression value) (renameType ρ annotated)
  | .binaryExpression span operator left right annotated =>
      .binaryExpression span operator (renameExpression left) (renameExpression right) (renameType ρ annotated)
  | .isPatternExpression span subject pattern annotated =>
      .isPatternExpression span (renameExpression subject) (renamePattern ρ pattern) (renameType ρ annotated)
  | .conditionalExpression span condition first second annotated =>
      .conditionalExpression span (renameExpression condition) (renameExpression first) (renameExpression second)
        (renameType ρ annotated)
  | .coalesceExpression span left fallback annotated =>
      .coalesceExpression span (renameExpression left) (renameExpression fallback) (renameType ρ annotated)
  | .assignmentExpression span operator name value annotated =>
      .assignmentExpression span operator (ρ name) (renameExpression value) (renameType ρ annotated)
  | .incrementExpression span isPrefixForm name annotated =>
      .incrementExpression span isPrefixForm (ρ name) (renameType ρ annotated)
  | .loopExpression span loop annotated => .loopExpression span (renameStatement loop) (renameType ρ annotated)
  | .blockExpression span block annotated => .blockExpression span (renameBlock block) (renameType ρ annotated)
  | .matchExpression span subjects arms annotated =>
      .matchExpression span (renameExpressions subjects) (renameMatchArms arms) (renameType ρ annotated)
  | .callableExpression span explicit captures parameters body annotated =>
      .callableExpression span explicit (renameCaptures captures) (renameParameters ρ parameters)
        (renameCallableBody body) (renameType ρ annotated)

def renameMatchArm : MatchArm ResolvedName → MatchArm ResolvedName
  | .matchArm patterns guard body =>
      .matchArm (renameMatchPatterns ρ patterns) (renameOptional guard) (renameExpression body)

def renameMatchArms : List (MatchArm ResolvedName) → List (MatchArm ResolvedName)
  | [] => []
  | arm :: remaining => renameMatchArm arm :: renameMatchArms remaining

def renameCapture : Capture ResolvedName → Capture ResolvedName
  | .capture span mode name annotated initializer =>
      .capture span mode (ρ name) (renameType ρ annotated) (renameOptional initializer)

def renameCaptures : List (Capture ResolvedName) → List (Capture ResolvedName)
  | [] => []
  | capture :: remaining => renameCapture capture :: renameCaptures remaining

def renameCallableBody : CallableBody ResolvedName → CallableBody ResolvedName
  | .callableExpressionBody expression => .callableExpressionBody (renameExpression expression)
  | .callableBlockBody block => .callableBlockBody (renameBlock block)

end

mutual

def renameDeclaration : Declaration ResolvedName → Declaration ResolvedName
  | .typeDeclaration span name annotated members =>
      .typeDeclaration span (ρ name) (renameType ρ annotated) (renameDeclarations members)
  | .functionDeclaration span name annotated returnSyntax parameters body isStatic access =>
      .functionDeclaration span (ρ name) (renameType ρ annotated) returnSyntax (renameParameters ρ parameters)
        (renameBlock ρ body) isStatic access
  | .templateTypeDeclaration span name annotated parameters members =>
      .templateTypeDeclaration span name annotated parameters members
  | .enumDeclaration span name annotated underlying => .enumDeclaration span name annotated underlying

def renameDeclarations : List (Declaration ResolvedName) → List (Declaration ResolvedName)
  | [] => []
  | member :: remaining => renameDeclaration member :: renameDeclarations remaining

end

end Rename

/-! ## The uses of a renamed tree -/

section UsesRename

variable (ρ : ResolvedName → ResolvedName)

theorem valueUses_rename (value : TemplateValue) :
    valueUses (renameValue ρ value) = (valueUses value).map (.map ρ) := by
  cases value <;> rfl

mutual

theorem typeUses_rename (valueType : Ty) : typeUses (renameType ρ valueType) = (typeUses valueType).map (.map ρ) := by
  cases valueType with
  | namedType name arguments => simp [renameType, typeUses, argumentsUses_rename]
  | functionType parameters result => simp [renameType, typeUses, typesUses_rename, typeUses_rename]
  | typeVariable name => rfl
  | errorType => rfl

theorem typesUses_rename (types : List Ty) : typesUses (renameTypes ρ types) = (typesUses types).map (.map ρ) := by
  cases types with
  | nil => rfl
  | cons valueType remaining => simp [renameTypes, typesUses, typeUses_rename, typesUses_rename]

theorem argumentUses_rename (argument : TemplateArgument) :
    argumentUses (renameArgument ρ argument) = (argumentUses argument).map (.map ρ) := by
  cases argument with
  | typeTemplateArgument valueType => simp [renameArgument, argumentUses, typeUses_rename]
  | valueTemplateArgument value => simp [renameArgument, argumentUses, valueUses_rename]

theorem argumentsUses_rename (arguments : List TemplateArgument) :
    argumentsUses (renameArguments ρ arguments) = (argumentsUses arguments).map (.map ρ) := by
  cases arguments with
  | nil => rfl
  | cons argument remaining => simp [renameArguments, argumentsUses, argumentUses_rename, argumentsUses_rename]

end

theorem patternUses_rename (pattern : Pattern) :
    patternUses (renamePattern ρ pattern) = (patternUses pattern).map (.map ρ) := by
  induction pattern with
  | notPattern nested annotated ih => simp [renamePattern, patternUses, typeUses_rename, ih]
  | andPattern left right annotated ihl ihr => simp [renamePattern, patternUses, typeUses_rename, ihl, ihr]
  | orPattern left right annotated ihl ihr => simp [renamePattern, patternUses, typeUses_rename, ihl, ihr]
  | _ => simp [renamePattern, patternUses, typeUses_rename]

theorem matchPatternsUses_rename (patterns : List (MatchPattern ResolvedName)) :
    matchPatternsUses (renameMatchPatterns ρ patterns) = (matchPatternsUses patterns).map (.map ρ) := by
  induction patterns with
  | nil => rfl
  | cons pattern remaining ih =>
      have hpattern : matchPatternUses (renameMatchPattern ρ pattern) = (matchPatternUses pattern).map (.map ρ) := by
        fun_cases renameMatchPattern ρ pattern <;>
          simp [matchPatternUses, typeUses_rename, NameUse.map]
      simp [renameMatchPatterns, matchPatternsUses, hpattern, ih]

theorem parametersUses_rename (parameters : List (Parameter ResolvedName)) :
    parametersUses (renameParameters ρ parameters) = (parametersUses parameters).map (.map ρ) := by
  induction parameters with
  | nil => rfl
  | cons parameter remaining ih =>
      simp [renameParameters, parametersUses, renameParameter, parameterUses, typeUses_rename, NameUse.map, ih]

mutual

theorem blockUses_rename (block : List (Statement ResolvedName)) :
    blockUses (renameBlock ρ block) = (blockUses block).map (.map ρ) := by
  cases block with
  | nil => rfl
  | cons statement remaining => simp [renameBlock, blockUses, statementUses_rename, blockUses_rename]

theorem elseUses_rename (block : Option (List (Statement ResolvedName))) :
    elseUses (renameElse ρ block) = (elseUses block).map (.map ρ) := by
  cases block with
  | none => rfl
  | some block => simp [renameElse, elseUses, blockUses_rename]

theorem initializerUses_rename (initializer : Option (Statement ResolvedName)) :
    initializerUses (renameInitializer ρ initializer) = (initializerUses initializer).map (.map ρ) := by
  cases initializer with
  | none => rfl
  | some statement => simp [renameInitializer, initializerUses, statementUses_rename]

theorem statementUses_rename (statement : Statement ResolvedName) :
    statementUses (renameStatement ρ statement) = (statementUses statement).map (.map ρ) := by
  cases statement <;>
    simp [renameStatement, statementUses, typeUses_rename, expressionUses_rename, optionalUses_rename,
      blockUses_rename, elseUses_rename, initializerUses_rename, NameUse.map]

theorem optionalUses_rename (value : Option (Expression ResolvedName)) :
    optionalUses (renameOptional ρ value) = (optionalUses value).map (.map ρ) := by
  cases value with
  | none => rfl
  | some expression => simp [renameOptional, optionalUses, expressionUses_rename]

theorem expressionsUses_rename (values : List (Expression ResolvedName)) :
    expressionsUses (renameExpressions ρ values) = (expressionsUses values).map (.map ρ) := by
  cases values with
  | nil => rfl
  | cons expression remaining =>
      simp [renameExpressions, expressionsUses, expressionUses_rename, expressionsUses_rename]

theorem expressionUses_rename (expression : Expression ResolvedName) :
    expressionUses (renameExpression ρ expression) = (expressionUses expression).map (.map ρ) := by
  cases expression <;>
    simp [renameExpression, expressionUses, typeUses_rename, patternUses_rename, expressionUses_rename,
      expressionsUses_rename, statementUses_rename, blockUses_rename, matchArmsUses_rename, capturesUses_rename,
      parametersUses_rename, callableBodyUses_rename, NameUse.map]

theorem matchArmUses_rename (arm : MatchArm ResolvedName) :
    matchArmUses (renameMatchArm ρ arm) = (matchArmUses arm).map (.map ρ) := by
  cases arm with
  | matchArm patterns guard body =>
      simp [renameMatchArm, matchArmUses, matchPatternsUses_rename, optionalUses_rename, expressionUses_rename]

theorem matchArmsUses_rename (arms : List (MatchArm ResolvedName)) :
    matchArmsUses (renameMatchArms ρ arms) = (matchArmsUses arms).map (.map ρ) := by
  cases arms with
  | nil => rfl
  | cons arm remaining => simp [renameMatchArms, matchArmsUses, matchArmUses_rename, matchArmsUses_rename]

theorem captureUses_rename (capture : Capture ResolvedName) :
    captureUses (renameCapture ρ capture) = (captureUses capture).map (.map ρ) := by
  cases capture with
  | capture span mode name annotated initializer =>
      simp [renameCapture, captureUses, optionalUses_rename, typeUses_rename, NameUse.map]

theorem capturesUses_rename (captures : List (Capture ResolvedName)) :
    capturesUses (renameCaptures ρ captures) = (capturesUses captures).map (.map ρ) := by
  cases captures with
  | nil => rfl
  | cons capture remaining => simp [renameCaptures, capturesUses, captureUses_rename, capturesUses_rename]

theorem callableBodyUses_rename (body : CallableBody ResolvedName) :
    callableBodyUses (renameCallableBody ρ body) = (callableBodyUses body).map (.map ρ) := by
  cases body with
  | callableExpressionBody expression => simp [renameCallableBody, callableBodyUses, expressionUses_rename]
  | callableBlockBody block => simp [renameCallableBody, callableBodyUses, blockUses_rename]

end

theorem memberNames_rename (members : List (Declaration ResolvedName)) :
    memberNames (renameDeclarations ρ members) = (memberNames members).map (.map ρ) := by
  induction members with
  | nil => rfl
  | cons member remaining ih =>
      cases member <;> simp [renameDeclarations, renameDeclaration, memberNames, NameUse.map, ih]

mutual

/-- **A renamed declaration uses the renamed names.** -/
theorem declarationUses_rename (declaration : Declaration ResolvedName) :
    declarationUses (renameDeclaration ρ declaration) = (declarationUses declaration).map (.map ρ) := by
  cases declaration with
  | typeDeclaration span name annotated members =>
      simp [renameDeclaration, declarationUses, typeUses_rename, memberNames_rename, declarationsUses_rename,
        NameUse.map]
  | functionDeclaration span name annotated returnSyntax parameters body isStatic access =>
      simp [renameDeclaration, declarationUses, typeUses_rename, parametersUses_rename, blockUses_rename,
        NameUse.map]
  | templateTypeDeclaration span name annotated parameters members => rfl
  | enumDeclaration span name annotated underlying => rfl

theorem declarationsUses_rename (members : List (Declaration ResolvedName)) :
    declarationsUses (renameDeclarations ρ members) = (declarationsUses members).map (.map ρ) := by
  cases members with
  | nil => rfl
  | cons member remaining =>
      simp [renameDeclarations, declarationsUses, declarationUses_rename, declarationsUses_rename]

end

end UsesRename

end Tala.Frontend
