import Tala.Frontend.TemplateApplication
import Tala.Syntax.Parts

/-!
# `Frontend.TemplateDiscovery` — the template layouts that checked code needs

Every closed application of a template in a type of the checked tree asks for its layout. Open templates are
definitions and not uses: their bodies are not walked.
-/

namespace Tala.Frontend

open Tala Tala.Syntax

/-! ## Demands and origins -/

/-- Where a type stands. -/
inductive TemplateTypeSite
  | declarationTypeSite
  | functionSignatureSite
  | parameterTypeSite (index : Nat)
  | bindingTypeSite (index : Nat)
  | assignmentTypeSite (index : Nat)
  | returnTypeSite (index : Nat)
  | conditionTypeSite (index : Nat)
  | expressionTypeSite (index : Nat)
  | callableTypeSite (column : Nat)
  | captureTypeSite (index initializer : Nat)
  | nestedTypeArgumentSite (index : Nat)
  | functionParameterTypeSite (index : Nat)
  | functionResultTypeSite
  deriving DecidableEq, Repr

structure TemplateDiscoveryOrigin where
  discoveryDeclaration : ResolvedName
  discoveryMember : Option ResolvedName
  discoverySites : List TemplateTypeSite
  discoverySpan : SourceSpan
  deriving DecidableEq, Repr

/-- The part of a template that a demand keeps. -/
inductive TemplateDemandScope
  | templateLayoutDemand
  | templateMemberDemand (members : List Identifier)
  | templateCompleteDemand
  deriving DecidableEq, Repr

structure TemplateSpecializationDemand where
  specializationDemandApplication : TemplateApplication
  specializationDemandScope : TemplateDemandScope
  specializationDemandOrigin : String
  deriving DecidableEq

structure TemplateDiscoveryStatistics where
  visitedTemplateTypeNodes : Nat
  discoveredTemplateApplications : Nat
  ignoredOrdinaryNamedTypes : Nat
  skippedOpenTemplateBodies : Nat
  deriving DecidableEq, Repr

structure TemplateDemandDiscovery where
  discoveredTemplateDemands : List TemplateSpecializationDemand
  discoveredTemplateOrigins : List TemplateDiscoveryOrigin
  templateDiscoveryStatistics : TemplateDiscoveryStatistics

structure DiscoveryState where
  stateDemands : List TemplateSpecializationDemand
  stateOrigins : List TemplateDiscoveryOrigin
  stateVisitedTypes : Nat
  stateIgnoredTypes : Nat
  stateSkippedTemplates : Nat

def emptyState : DiscoveryState := ⟨[], [], 0, 0, 0⟩

def renderSite : TemplateTypeSite → String
  | .declarationTypeSite => "declaration"
  | .functionSignatureSite => "signature"
  | .parameterTypeSite index => "parameter:" ++ toString index
  | .bindingTypeSite index => "binding:" ++ toString index
  | .assignmentTypeSite index => "assignment:" ++ toString index
  | .returnTypeSite index => "return:" ++ toString index
  | .conditionTypeSite index => "condition:" ++ toString index
  | .expressionTypeSite index => "expression:" ++ toString index
  | .callableTypeSite column => "callable:" ++ toString column
  | .captureTypeSite index initializer => "capture:" ++ toString index ++ ":" ++ toString initializer
  | .nestedTypeArgumentSite index => "argument:" ++ toString index
  | .functionParameterTypeSite index => "function-parameter:" ++ toString index
  | .functionResultTypeSite => "function-result"

def renderTemplateDiscoveryOrigin (origin : TemplateDiscoveryOrigin) : String :=
  origin.discoverySpan.sourceFile ++ ":" ++ toString origin.discoverySpan.sourceStart.sourceLine ++ ":" ++
    toString origin.discoverySpan.sourceStart.sourceColumn ++ " in " ++
    origin.discoveryDeclaration.resolvedSpelling ++
    (match origin.discoveryMember with
    | none => ""
    | some member => "." ++ member.resolvedSpelling) ++
    " [" ++ String.intercalate "/" (origin.discoverySites.map renderSite) ++ "]"

/-- One more step on the way to a type. -/
def TemplateDiscoveryOrigin.extend (origin : TemplateDiscoveryOrigin) (site : TemplateTypeSite) :
    TemplateDiscoveryOrigin :=
  { origin with discoverySites := origin.discoverySites ++ [site] }

/-- One more step, to code with a span of its own. -/
def TemplateDiscoveryOrigin.enter (origin : TemplateDiscoveryOrigin) (site : TemplateTypeSite) (span : SourceSpan) :
    TemplateDiscoveryOrigin :=
  { origin with discoverySites := origin.discoverySites ++ [site], discoverySpan := span }

/-- Another place in the same declaration. -/
def TemplateDiscoveryOrigin.moveTo (origin : TemplateDiscoveryOrigin) (site : TemplateTypeSite) (span : SourceSpan) :
    TemplateDiscoveryOrigin :=
  { origin with discoverySites := [site], discoverySpan := span }

/-! ## Types -/

/-- A template by its name, which may be relative to the namespace when it has one part. -/
def resolveTemplateTarget (namespaceName : Option QualifiedName) (name : QualifiedName) (catalog : TemplateCatalog) :
    Option QualifiedName :=
  if catalog.templateCatalogDeclarations.any (·.templateDeclarationName = name) then some name
  else
    match namespaceName, name with
    | some owner, [single] =>
        if catalog.templateCatalogDeclarations.any (·.templateDeclarationName = owner ++ [single]) then
          some (owner ++ [single])
        else none
    | _, _ => none

mutual

def isClosedType : Ty → Bool
  | .namedType _ arguments => closedArguments arguments
  | .functionType parameters result => closedTypes parameters && isClosedType result
  | .typeVariable _ => false
  | .errorType => false

def closedTypes : List Ty → Bool
  | [] => true
  | parameter :: remaining => isClosedType parameter && closedTypes remaining

def closedArguments : List TemplateArgument → Bool
  | [] => true
  | .typeTemplateArgument nested :: remaining => isClosedType nested && closedArguments remaining
  | .valueTemplateArgument (.templateValueParameter _) :: _ => false
  | .valueTemplateArgument _ :: remaining => closedArguments remaining

end

section Discovery

variable (catalog : TemplateCatalog) (namespaceName : Option QualifiedName)

/-- A named type asks for its layout when it is a closed application of a template. -/
def discoverNamed (origin : TemplateDiscoveryOrigin) (name : QualifiedName) (arguments : List TemplateArgument)
    (visited : DiscoveryState) : DiscoveryState :=
  match resolveTemplateTarget namespaceName name catalog with
  | some target =>
      if isClosedType (.namedType name arguments) then
        { visited with
          stateDemands := ⟨⟨target, arguments⟩, .templateLayoutDemand, renderTemplateDiscoveryOrigin origin⟩ ::
            visited.stateDemands
          stateOrigins := origin :: visited.stateOrigins }
      else { visited with stateIgnoredTypes := visited.stateIgnoredTypes + 1 }
  | none => { visited with stateIgnoredTypes := visited.stateIgnoredTypes + 1 }

mutual

def discoverType (origin : TemplateDiscoveryOrigin) : Ty → DiscoveryState → DiscoveryState
  | .namedType name arguments, state =>
      let visited := { state with stateVisitedTypes := state.stateVisitedTypes + 1 }
      discoverArguments origin 0 arguments (discoverNamed catalog namespaceName origin name arguments visited)
  | .functionType parameters result, state =>
      let visited := { state with stateVisitedTypes := state.stateVisitedTypes + 1 }
      discoverType (origin.extend .functionResultTypeSite) result (discoverParameterTypes origin 0 parameters visited)
  | .typeVariable _, state => { state with stateVisitedTypes := state.stateVisitedTypes + 1 }
  | .errorType, state => { state with stateVisitedTypes := state.stateVisitedTypes + 1 }

def discoverParameterTypes (origin : TemplateDiscoveryOrigin) (index : Nat) :
    List Ty → DiscoveryState → DiscoveryState
  | [], state => state
  | parameter :: remaining, state =>
      discoverParameterTypes origin (index + 1) remaining
        (discoverType (origin.extend (.functionParameterTypeSite index)) parameter state)

def discoverArguments (origin : TemplateDiscoveryOrigin) (index : Nat) :
    List TemplateArgument → DiscoveryState → DiscoveryState
  | [], state => state
  | .typeTemplateArgument nested :: remaining, state =>
      discoverArguments origin (index + 1) remaining
        (discoverType (origin.extend (.nestedTypeArgumentSite index)) nested state)
  | .valueTemplateArgument _ :: remaining, state => discoverArguments origin (index + 1) remaining state

end

/-! ## Code -/

def discoverPattern (origin : TemplateDiscoveryOrigin) : Pattern → DiscoveryState → DiscoveryState
  | .wildcardPattern annotated, state => discoverType catalog namespaceName origin annotated state
  | .nullPattern annotated, state => discoverType catalog namespaceName origin annotated state
  | .literalPattern _ annotated, state => discoverType catalog namespaceName origin annotated state
  | .typePattern annotated, state => discoverType catalog namespaceName origin annotated state
  | .relationalPattern _ _ annotated, state => discoverType catalog namespaceName origin annotated state
  | .notPattern nested annotated, state =>
      discoverPattern origin nested (discoverType catalog namespaceName origin annotated state)
  | .andPattern left right annotated, state =>
      discoverPattern origin right
        (discoverPattern origin left (discoverType catalog namespaceName origin annotated state))
  | .orPattern left right annotated, state =>
      discoverPattern origin right
        (discoverPattern origin left (discoverType catalog namespaceName origin annotated state))

/-- The types of the parameters of a function or a closure, under the given origin of each. -/
def discoverParameters (originOf : Nat → TemplateDiscoveryOrigin) (index : Nat) :
    List (Parameter ResolvedName) → DiscoveryState → DiscoveryState
  | [], state => state
  | parameter :: remaining, state =>
      discoverParameters originOf (index + 1) remaining
        (discoverType catalog namespaceName (originOf index) parameter.parameterAnnotation state)

/-- The types of some match patterns. -/
def discoverMatchPatterns (origin : TemplateDiscoveryOrigin) (patterns : List (MatchPattern ResolvedName))
    (state : DiscoveryState) : DiscoveryState :=
  patterns.foldl (fun current pattern =>
    discoverType catalog namespaceName origin ( matchPatternAnnotation pattern) current) state

mutual

def discoverStatement (root : TemplateDiscoveryOrigin) (index : Nat) :
    Statement ResolvedName → DiscoveryState → DiscoveryState
  | .bindingStatement spanValue _ _ annotated value, state =>
      let origin := root.moveTo (.bindingTypeSite index) spanValue
      discoverExpression origin value (discoverType catalog namespaceName origin annotated state)
  | .assignmentStatement spanValue _ annotated value, state =>
      let origin := root.moveTo (.assignmentTypeSite index) spanValue
      discoverExpression origin value (discoverType catalog namespaceName origin annotated state)
  | .returnStatement spanValue value, state =>
      discoverOptional (root.moveTo (.returnTypeSite index) spanValue) value state
  | .ifStatement spanValue condition whenTrue whenFalse, state =>
      let origin := root.moveTo (.conditionTypeSite index) spanValue
      discoverOptionalBlock origin whenFalse
        (discoverBlock origin 0 whenTrue (discoverExpression origin condition state))
  | .whileStatement spanValue condition body, state =>
      let origin := root.moveTo (.conditionTypeSite index) spanValue
      discoverBlock origin 0 body (discoverExpression origin condition state)
  | .doWhileStatement spanValue body condition, state =>
      let origin := root.moveTo (.conditionTypeSite index) spanValue
      discoverExpression origin condition (discoverBlock origin 0 body state)
  | .forStatement spanValue initializer condition updates body, state =>
      let origin := root.moveTo (.conditionTypeSite index) spanValue
      discoverBlock origin 0 body
        (discoverUpdates origin index updates
          (discoverOptional origin condition (discoverInitializer origin index initializer state)))
  | .forEachStatement spanValue _ _ annotated source body, state =>
      let origin := root.moveTo (.conditionTypeSite index) spanValue
      discoverBlock origin 0 body
        (discoverExpression origin source (discoverType catalog namespaceName origin annotated state))
  | .incrementStatement _ _ annotated, state => discoverType catalog namespaceName root annotated state
  | .compoundAssignmentStatement spanValue _ _ annotated value, state =>
      let origin := root.moveTo (.assignmentTypeSite index) spanValue
      discoverExpression origin value (discoverType catalog namespaceName origin annotated state)
  | .discardStatement spanValue expression, state =>
      discoverExpression (root.moveTo (.expressionTypeSite index) spanValue) expression state
  | .breakStatement _ value, state => discoverOptional root value state
  | .continueStatement _, state => state
  | .guardStatement spanValue condition block, state =>
      let origin := root.moveTo (.conditionTypeSite index) spanValue
      discoverBlock origin 0 block (discoverExpression origin condition state)
  | .blockStatement spanValue block, state =>
      discoverBlock (root.moveTo (.conditionTypeSite index) spanValue) 0 block state
  | .expressionStatement spanValue expression _, state =>
      discoverExpression (root.moveTo (.expressionTypeSite index) spanValue) expression state

def discoverExpression (origin : TemplateDiscoveryOrigin) :
    Expression ResolvedName → DiscoveryState → DiscoveryState
  | .nameExpression _ _ annotated, state => discoverType catalog namespaceName origin annotated state
  | .literalExpression _ _ annotated, state => discoverType catalog namespaceName origin annotated state
  | .memberAccessExpression _ receiver _ annotated, state =>
      discoverExpression origin receiver (discoverType catalog namespaceName origin annotated state)
  | .methodReferenceExpression _ receiver _ annotated, state =>
      discoverExpression origin receiver (discoverType catalog namespaceName origin annotated state)
  | .callExpression _ callee arguments annotated, state =>
      discoverOperands origin arguments
        (discoverExpression origin callee (discoverType catalog namespaceName origin annotated state))
  | .unaryExpression _ _ value annotated, state =>
      discoverExpression origin value (discoverType catalog namespaceName origin annotated state)
  | .binaryExpression _ _ left right annotated, state =>
      discoverExpression origin right
        (discoverExpression origin left (discoverType catalog namespaceName origin annotated state))
  | .isPatternExpression _ subject pattern annotated, state =>
      discoverPattern catalog namespaceName origin pattern
        (discoverExpression origin subject (discoverType catalog namespaceName origin annotated state))
  | .conditionalExpression _ condition first second annotated, state =>
      discoverExpression origin second
        (discoverExpression origin first
          (discoverExpression origin condition (discoverType catalog namespaceName origin annotated state)))
  | .coalesceExpression _ left fallback annotated, state =>
      discoverExpression origin fallback
        (discoverExpression origin left (discoverType catalog namespaceName origin annotated state))
  | .assignmentExpression _ _ _ value annotated, state =>
      discoverExpression origin value (discoverType catalog namespaceName origin annotated state)
  | .incrementExpression _ _ _ annotated, state => discoverType catalog namespaceName origin annotated state
  | .loopExpression _ loop annotated, state =>
      discoverStatement origin 0 loop (discoverType catalog namespaceName origin annotated state)
  | .blockExpression _ block annotated, state =>
      discoverBlock origin 0 block (discoverType catalog namespaceName origin annotated state)
  -- The patterns of all arms come before the subjects and what the arms compute.
  | .matchExpression _ subjects arms annotated, state =>
      discoverArms origin arms
        (discoverOperands origin subjects
          (discoverMatchPatterns catalog namespaceName origin (arms.flatMap matchArmPatterns)
            (discoverType catalog namespaceName origin annotated state)))
  | .callableExpression spanValue _ captures parameters body annotated, state =>
      let callableOrigin := origin.enter (.callableTypeSite spanValue.sourceStart.sourceColumn) spanValue
      discoverCallableBody callableOrigin body
        (discoverParameters catalog namespaceName (fun index => callableOrigin.extend (.parameterTypeSite index)) 0
          parameters
          (discoverCaptures callableOrigin 0 captures
            (discoverType catalog namespaceName callableOrigin annotated state)))

def discoverBlock (root : TemplateDiscoveryOrigin) (index : Nat) :
    List (Statement ResolvedName) → DiscoveryState → DiscoveryState
  | [], state => state
  | statement :: remaining, state =>
      discoverBlock root (index + 1) remaining (discoverStatement root index statement state)

def discoverOptionalBlock (root : TemplateDiscoveryOrigin) :
    Option (List (Statement ResolvedName)) → DiscoveryState → DiscoveryState
  | none, state => state
  | some block, state => discoverBlock root 0 block state

def discoverInitializer (root : TemplateDiscoveryOrigin) (index : Nat) :
    Option (Statement ResolvedName) → DiscoveryState → DiscoveryState
  | none, state => state
  | some statement, state => discoverStatement root index statement state

/-- The updates of a loop, all under the index of the loop. -/
def discoverUpdates (root : TemplateDiscoveryOrigin) (index : Nat) :
    List (Statement ResolvedName) → DiscoveryState → DiscoveryState
  | [], state => state
  | statement :: remaining, state =>
      discoverUpdates root index remaining (discoverStatement root index statement state)

def discoverOptional (origin : TemplateDiscoveryOrigin) :
    Option (Expression ResolvedName) → DiscoveryState → DiscoveryState
  | none, state => state
  | some value, state => discoverExpression origin value state

def discoverOperands (origin : TemplateDiscoveryOrigin) :
    List (Expression ResolvedName) → DiscoveryState → DiscoveryState
  | [], state => state
  | operand :: remaining, state => discoverOperands origin remaining (discoverExpression origin operand state)

/-- The guards and bodies of arms. -/
def discoverArms (origin : TemplateDiscoveryOrigin) : List (MatchArm ResolvedName) → DiscoveryState → DiscoveryState
  | [], state => state
  | .matchArm _ guard body :: remaining, state =>
      discoverArms origin remaining (discoverExpression origin body (discoverOptional origin guard state))

def discoverCaptures (root : TemplateDiscoveryOrigin) (index : Nat) :
    List (Capture ResolvedName) → DiscoveryState → DiscoveryState
  | [], state => state
  | .capture captureSpan _ _ annotated initializer :: remaining, state =>
      let origin := root.enter (.captureTypeSite index 0) captureSpan
      discoverCaptures root (index + 1) remaining
        (discoverOptional origin initializer (discoverType catalog namespaceName origin annotated state))

def discoverCallableBody (origin : TemplateDiscoveryOrigin) :
    CallableBody ResolvedName → DiscoveryState → DiscoveryState
  | .callableExpressionBody expression, state => discoverExpression origin expression state
  | .callableBlockBody block, state => discoverBlock origin 0 block state

end

/-! ## Declarations -/

/-- The result in the type of a function. -/
def functionResult : Ty → Ty
  | .functionType _ result => result
  | other => other

/-- A function. Its type repeats the types of the parameters, so that only the result in it is walked. -/
def discoverFunction (owner : ResolvedName) (member : Option ResolvedName) :
    Declaration ResolvedName → DiscoveryState → DiscoveryState
  | .functionDeclaration spanValue _ annotated _ parameters body _ _, state =>
      let root : TemplateDiscoveryOrigin := ⟨owner, member, [.functionSignatureSite], spanValue⟩
      discoverBlock catalog namespaceName root 0 body
        (discoverParameters catalog namespaceName
          (fun index => { root with discoverySites := [.parameterTypeSite index] }) 0 parameters
          (discoverType catalog namespaceName root (functionResult annotated) state))
  | _, state => state

mutual

def discoverMember (owner : ResolvedName) : Declaration ResolvedName → DiscoveryState → DiscoveryState
  | .functionDeclaration spanValue name annotated returnSyntax parameters body isStatic access, state =>
      discoverFunction catalog namespaceName owner (some name)
        (.functionDeclaration spanValue name annotated returnSyntax parameters body isStatic access) state
  | .typeDeclaration spanValue name annotated members, state =>
      discoverMembers owner members
        (discoverType catalog namespaceName ⟨owner, some name, [.declarationTypeSite], spanValue⟩ annotated state)
  | .templateTypeDeclaration _ _ _ _ _, state =>
      { state with stateSkippedTemplates := state.stateSkippedTemplates + 1 }
  | .enumDeclaration _ _ _ _, state => state

def discoverMembers (owner : ResolvedName) : List (Declaration ResolvedName) → DiscoveryState → DiscoveryState
  | [], state => state
  | member :: remaining, state => discoverMembers owner remaining (discoverMember owner member state)

end

def discoverTop (state : DiscoveryState) : Declaration ResolvedName → DiscoveryState
  | .templateTypeDeclaration _ _ _ _ _ => { state with stateSkippedTemplates := state.stateSkippedTemplates + 1 }
  | .typeDeclaration spanValue name annotated members =>
      discoverMembers catalog namespaceName name members
        (discoverType catalog namespaceName ⟨name, none, [.declarationTypeSite], spanValue⟩ annotated state)
  | .functionDeclaration spanValue name annotated returnSyntax parameters body isStatic access =>
      discoverFunction catalog namespaceName name none
        (.functionDeclaration spanValue name annotated returnSyntax parameters body isStatic access) state
  -- An enum uses no template: its underlying type is a scalar.
  | .enumDeclaration _ _ _ _ => state

end Discovery

/-- The layouts that a program needs, with where each was found. -/
def discoverTemplateDemands (tree : SyntaxTree ResolvedName) : TemplateDemandDiscovery :=
  let final := tree.syntaxDeclarations.foldl
    (discoverTop (buildTemplateCatalog tree) tree.syntaxNamespace) emptyState
  let demands := final.stateDemands.reverse
  { discoveredTemplateDemands := demands
    discoveredTemplateOrigins := final.stateOrigins.reverse
    templateDiscoveryStatistics :=
      ⟨final.stateVisitedTypes, demands.length, final.stateIgnoredTypes, final.stateSkippedTemplates⟩ }

end Tala.Frontend
