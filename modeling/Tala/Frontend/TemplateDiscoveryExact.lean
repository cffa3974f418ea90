import Tala.Frontend.TemplateDiscovery

/-!
# `Frontend.TemplateDiscoveryExact` — discovery finds every use of a template once

The types in code are listed twice: in the order in which discovery walks them (`declarationTypes` over
`blockTypes`) and in the order of the source, each part before its children (over `sourceTypes`). Both are the same
types, each as often (`memberTypes_perm`); a `match` shows that the order may differ.

`discoverTemplateDemands_exact` says that there is one demand for each occurrence of a closed application in a type
of the code, with the place it was found at, and no other.
-/

namespace Tala.Frontend

open Tala Tala.Syntax

/-! ## Types in code -/

mutual

/-- A type and every type inside it, each before its own parts. -/
def typeComponents : Ty → List Ty
  | .namedType name arguments => .namedType name arguments :: argumentComponents arguments
  | .functionType parameters result =>
      .functionType parameters result :: (parameterComponents parameters ++ typeComponents result)
  | .typeVariable name => [.typeVariable name]
  | .errorType => [.errorType]

def parameterComponents : List Ty → List Ty
  | [] => []
  | parameter :: remaining => typeComponents parameter ++ parameterComponents remaining

def argumentComponents : List TemplateArgument → List Ty
  | [] => []
  | .typeTemplateArgument nested :: remaining => typeComponents nested ++ argumentComponents remaining
  | .valueTemplateArgument _ :: remaining => argumentComponents remaining

end

/-- The application of a template that a type is itself, when it is closed. -/
def closedApplication (catalog : TemplateCatalog) (namespaceName : Option QualifiedName) :
    Ty → Option TemplateApplication
  | .namedType name arguments =>
      if isClosedType (.namedType name arguments) then
        (resolveTemplateTarget namespaceName name catalog).map (⟨·, arguments⟩)
      else none
  | _ => none

def patternTypes : Pattern → List Ty
  | .wildcardPattern annotated => [annotated]
  | .nullPattern annotated => [annotated]
  | .literalPattern _ annotated => [annotated]
  | .typePattern annotated => [annotated]
  | .relationalPattern _ _ annotated => [annotated]
  | .notPattern nested annotated => annotated :: patternTypes nested
  | .andPattern left right annotated => annotated :: (patternTypes left ++ patternTypes right)
  | .orPattern left right annotated => annotated :: (patternTypes left ++ patternTypes right)

/-- The types that a part of code is annotated with itself. -/
def annotations : CodePart ResolvedName → List Ty
  | .statement (.bindingStatement _ _ _ annotated _) => [annotated]
  | .statement (.assignmentStatement _ _ annotated _) => [annotated]
  | .statement (.forEachStatement _ _ _ annotated _ _) => [annotated]
  | .statement (.incrementStatement _ _ annotated) => [annotated]
  | .statement (.compoundAssignmentStatement _ _ _ annotated _) => [annotated]
  | .statement _ => []
  | .expression (.nameExpression _ _ annotated) => [annotated]
  | .expression (.literalExpression _ _ annotated) => [annotated]
  | .expression (.memberAccessExpression _ _ _ annotated) => [annotated]
  | .expression (.methodReferenceExpression _ _ _ annotated) => [annotated]
  | .expression (.callExpression _ _ _ annotated) => [annotated]
  | .expression (.unaryExpression _ _ _ annotated) => [annotated]
  | .expression (.binaryExpression _ _ _ _ annotated) => [annotated]
  | .expression (.isPatternExpression _ _ pattern annotated) => annotated :: patternTypes pattern
  | .expression (.conditionalExpression _ _ _ _ annotated) => [annotated]
  | .expression (.coalesceExpression _ _ _ annotated) => [annotated]
  | .expression (.assignmentExpression _ _ _ _ annotated) => [annotated]
  | .expression (.incrementExpression _ _ _ annotated) => [annotated]
  | .expression (.loopExpression _ _ annotated) => [annotated]
  | .expression (.blockExpression _ _ annotated) => [annotated]
  | .expression (.matchExpression _ _ _ annotated) => [annotated]
  | .expression (.callableExpression _ _ _ parameters _ annotated) =>
      annotated :: parameters.map Parameter.parameterAnnotation
  | .arm (.matchArm patterns _ _) => patterns.map matchPatternAnnotation
  | .capture (.capture _ _ _ annotated _) => [annotated]

/-! ## The order of discovery -/

mutual

/-- The types in a statement, in the order in which they are walked. -/
def statementTypes : Statement ResolvedName → List Ty
  | .bindingStatement _ _ _ annotated value => annotated :: expressionTypes value
  | .assignmentStatement _ _ annotated value => annotated :: expressionTypes value
  | .returnStatement _ value => optionalTypes value
  | .ifStatement _ condition whenTrue whenFalse =>
      expressionTypes condition ++ (blockTypes whenTrue ++ optionalBlockTypes whenFalse)
  | .whileStatement _ condition body => expressionTypes condition ++ blockTypes body
  | .doWhileStatement _ body condition => blockTypes body ++ expressionTypes condition
  | .forStatement _ initializer condition updates body =>
      initializerTypes initializer ++ (optionalTypes condition ++ (blockTypes updates ++ blockTypes body))
  | .forEachStatement _ _ _ annotated source body => annotated :: (expressionTypes source ++ blockTypes body)
  | .incrementStatement _ _ annotated => [annotated]
  | .compoundAssignmentStatement _ _ _ annotated value => annotated :: expressionTypes value
  | .discardStatement _ value => expressionTypes value
  | .breakStatement _ value => optionalTypes value
  | .continueStatement _ => []
  | .guardStatement _ condition block => expressionTypes condition ++ blockTypes block
  | .blockStatement _ block => blockTypes block
  | .expressionStatement _ value _ => expressionTypes value

def expressionTypes : Expression ResolvedName → List Ty
  | .nameExpression _ _ annotated => [annotated]
  | .literalExpression _ _ annotated => [annotated]
  | .memberAccessExpression _ receiver _ annotated => annotated :: expressionTypes receiver
  | .methodReferenceExpression _ receiver _ annotated => annotated :: expressionTypes receiver
  | .callExpression _ callee arguments annotated =>
      annotated :: (expressionTypes callee ++ operandTypes arguments)
  | .unaryExpression _ _ value annotated => annotated :: expressionTypes value
  | .binaryExpression _ _ left right annotated => annotated :: (expressionTypes left ++ expressionTypes right)
  | .isPatternExpression _ subject pattern annotated =>
      annotated :: (expressionTypes subject ++ patternTypes pattern)
  | .conditionalExpression _ condition first second annotated =>
      annotated :: (expressionTypes condition ++ (expressionTypes first ++ expressionTypes second))
  | .coalesceExpression _ left fallback annotated =>
      annotated :: (expressionTypes left ++ expressionTypes fallback)
  | .assignmentExpression _ _ _ value annotated => annotated :: expressionTypes value
  | .incrementExpression _ _ _ annotated => [annotated]
  | .loopExpression _ loop annotated => annotated :: statementTypes loop
  | .blockExpression _ block annotated => annotated :: blockTypes block
  | .matchExpression _ subjects arms annotated =>
      annotated :: ((arms.flatMap matchArmPatterns).map matchPatternAnnotation ++
        (operandTypes subjects ++ armTypes arms))
  | .callableExpression _ _ captures parameters body annotated =>
      annotated :: (captureTypes captures ++ (parameters.map Parameter.parameterAnnotation ++ callableBodyTypes body))

def blockTypes : List (Statement ResolvedName) → List Ty
  | [] => []
  | statement :: remaining => statementTypes statement ++ blockTypes remaining

def optionalBlockTypes : Option (List (Statement ResolvedName)) → List Ty
  | none => []
  | some block => blockTypes block

def initializerTypes : Option (Statement ResolvedName) → List Ty
  | none => []
  | some statement => statementTypes statement

def optionalTypes : Option (Expression ResolvedName) → List Ty
  | none => []
  | some value => expressionTypes value

def operandTypes : List (Expression ResolvedName) → List Ty
  | [] => []
  | operand :: remaining => expressionTypes operand ++ operandTypes remaining

def armTypes : List (MatchArm ResolvedName) → List Ty
  | [] => []
  | .matchArm _ guard body :: remaining => optionalTypes guard ++ (expressionTypes body ++ armTypes remaining)

def captureTypes : List (Capture ResolvedName) → List Ty
  | [] => []
  | .capture _ _ _ annotated initializer :: remaining =>
      annotated :: (optionalTypes initializer ++ captureTypes remaining)

def callableBodyTypes : CallableBody ResolvedName → List Ty
  | .callableExpressionBody expression => expressionTypes expression
  | .callableBlockBody block => blockTypes block

end

section Declarations

variable (bodyTypes : List (Statement ResolvedName) → List Ty)

mutual

/-- The types in a declaration, given those of bodies: of a function its result, its parameters and its body.
Templates and enums have none. -/
def declarationTypes : Declaration ResolvedName → List Ty
  | .functionDeclaration _ _ annotated _ parameters body _ _ =>
      functionResult annotated :: (parameters.map Parameter.parameterAnnotation ++ bodyTypes body)
  | .typeDeclaration _ _ annotated members => annotated :: memberTypes members
  | .templateTypeDeclaration _ _ _ _ _ => []
  | .enumDeclaration _ _ _ _ => []

def memberTypes : List (Declaration ResolvedName) → List Ty
  | [] => []
  | member :: remaining => declarationTypes member ++ memberTypes remaining

end

end Declarations

/-! ## What a walk adds -/

/-- A layout demand of an application found at an origin. -/
def layoutDemand (found : TemplateApplication × TemplateDiscoveryOrigin) : TemplateSpecializationDemand :=
  ⟨found.1, .templateLayoutDemand, renderTemplateDiscoveryOrigin found.2⟩

/-- From one state to another, some types were visited: exactly their closed applications were found, in that order,
each with an origin at a given place. -/
structure Adds (catalog : TemplateCatalog) (namespaceName : Option QualifiedName)
    (place : ResolvedName → Option ResolvedName → Prop) (visits : List Ty) (before after : DiscoveryState) :
    Prop where
  found : ∃ new : List (TemplateApplication × TemplateDiscoveryOrigin),
    after.stateDemands = (new.map layoutDemand).reverse ++ before.stateDemands ∧
    after.stateOrigins = (new.map Prod.snd).reverse ++ before.stateOrigins ∧
    new.map Prod.fst = visits.filterMap (closedApplication catalog namespaceName) ∧
    ∀ each ∈ new, place each.2.discoveryDeclaration each.2.discoveryMember
  visited : after.stateVisitedTypes = before.stateVisitedTypes + visits.length

section Adds

variable {catalog : TemplateCatalog} {namespaceName : Option QualifiedName}
  {place : ResolvedName → Option ResolvedName → Prop} {visits others : List Ty} {before state after : DiscoveryState}

theorem Adds.refl : Adds catalog namespaceName place [] state state where
  found := ⟨[], rfl, rfl, rfl, fun _ hmem => absurd hmem List.not_mem_nil⟩
  visited := rfl

theorem Adds.trans (h : Adds catalog namespaceName place visits before state)
    (hnext : Adds catalog namespaceName place others state after) :
    Adds catalog namespaceName place (visits ++ others) before after where
  found := by
    obtain ⟨new, hdemands, horigins, happlications, hplace⟩ := h.found
    obtain ⟨next, hdemands', horigins', happlications', hplace'⟩ := hnext.found
    refine ⟨new ++ next, ?_, ?_, ?_, ?_⟩
    · rw [hdemands', hdemands, List.map_append, List.reverse_append, List.append_assoc]
    · rw [horigins', horigins, List.map_append, List.reverse_append, List.append_assoc]
    · rw [List.map_append, happlications, happlications', List.filterMap_append]
    · exact fun each hmem => (List.mem_append.mp hmem).elim (hplace each) (hplace' each)
  visited := by rw [hnext.visited, h.visited, List.length_append, Nat.add_assoc]

theorem Adds.of_skipped (skipped : Nat) :
    Adds catalog namespaceName place [] state { state with stateSkippedTemplates := skipped } where
  found := ⟨[], rfl, rfl, rfl, fun _ hmem => absurd hmem List.not_mem_nil⟩
  visited := rfl

/-- A type that is no application is only counted. -/
theorem Adds.of_visited {type : Ty} (htype : closedApplication catalog namespaceName type = none) :
    Adds catalog namespaceName place [type] state
      { state with stateVisitedTypes := state.stateVisitedTypes + 1 } where
  found := ⟨[], rfl, rfl, by simp [htype], fun _ hmem => absurd hmem List.not_mem_nil⟩
  visited := rfl

/-- A named type is found once when it is a closed application. -/
theorem discoverNamed_adds {origin : TemplateDiscoveryOrigin} (name : QualifiedName)
    (arguments : List TemplateArgument) (hplace : place origin.discoveryDeclaration origin.discoveryMember) :
    Adds catalog namespaceName place [.namedType name arguments] state
      (discoverNamed catalog namespaceName origin name arguments
        { state with stateVisitedTypes := state.stateVisitedTypes + 1 }) := by
  unfold discoverNamed
  cases htarget : resolveTemplateTarget namespaceName name catalog with
  | none =>
      exact ⟨⟨[], rfl, rfl, by simp [closedApplication, htarget], fun _ hmem => absurd hmem List.not_mem_nil⟩, rfl⟩
  | some target =>
      by_cases hclosed : isClosedType (.namedType name arguments)
      · simp only [hclosed, if_true]
        refine ⟨⟨[(⟨target, arguments⟩, origin)], rfl, rfl, ?_, ?_⟩, rfl⟩
        · simp [closedApplication, htarget, hclosed]
        · exact fun each hmem => (List.mem_singleton.mp hmem) ▸ hplace
      · simp only [hclosed]
        exact ⟨⟨[], rfl, rfl, by simp [closedApplication, hclosed], fun _ hmem => absurd hmem List.not_mem_nil⟩, rfl⟩

mutual

/-- Walking a type visits its components. -/
theorem discoverType_adds (origin : TemplateDiscoveryOrigin) {state : DiscoveryState}
    (hplace : place origin.discoveryDeclaration origin.discoveryMember) : ∀ type : Ty,
    Adds catalog namespaceName place (typeComponents type) state
      (discoverType catalog namespaceName origin type state)
  | .namedType name arguments => by
      rw [discoverType, typeComponents]
      exact (discoverNamed_adds name arguments hplace).trans (discoverArguments_adds origin hplace 0 arguments)
  | .functionType parameters result => by
      rw [discoverType, typeComponents]
      exact (Adds.of_visited rfl).trans ((discoverParameterTypes_adds origin hplace 0 parameters).trans
        (discoverType_adds (origin.extend .functionResultTypeSite) hplace result))
  | .typeVariable name => by
      rw [discoverType, typeComponents]
      exact Adds.of_visited rfl
  | .errorType => by
      rw [discoverType, typeComponents]
      exact Adds.of_visited rfl

theorem discoverParameterTypes_adds (origin : TemplateDiscoveryOrigin) {state : DiscoveryState}
    (hplace : place origin.discoveryDeclaration origin.discoveryMember) (index : Nat) : ∀ parameters : List Ty,
    Adds catalog namespaceName place (parameterComponents parameters) state
      (discoverParameterTypes catalog namespaceName origin index parameters state)
  | [] => Adds.refl
  | parameter :: remaining => by
      rw [discoverParameterTypes, parameterComponents]
      exact (discoverType_adds (origin.extend (.functionParameterTypeSite index)) hplace parameter).trans
        (discoverParameterTypes_adds origin hplace (index + 1) remaining)

theorem discoverArguments_adds (origin : TemplateDiscoveryOrigin) {state : DiscoveryState}
    (hplace : place origin.discoveryDeclaration origin.discoveryMember) (index : Nat) :
    ∀ arguments : List TemplateArgument,
      Adds catalog namespaceName place (argumentComponents arguments) state
        (discoverArguments catalog namespaceName origin index arguments state)
  | [] => Adds.refl
  | .typeTemplateArgument nested :: remaining => by
      rw [discoverArguments, argumentComponents]
      exact (discoverType_adds (origin.extend (.nestedTypeArgumentSite index)) hplace nested).trans
        (discoverArguments_adds origin hplace (index + 1) remaining)
  | .valueTemplateArgument value :: remaining => by
      rw [discoverArguments, argumentComponents]
      exact discoverArguments_adds origin hplace (index + 1) remaining

end

/-! ## Code -/

/-- The components of some types. -/
theorem Adds.cons {type : Ty} {types : List Ty}
    (h : Adds catalog namespaceName place (typeComponents type) before state)
    (hnext : Adds catalog namespaceName place (types.flatMap typeComponents) state after) :
    Adds catalog namespaceName place ((type :: types).flatMap typeComponents) before after := by
  rw [List.flatMap_cons]
  exact h.trans hnext

theorem Adds.append {types rest : List Ty}
    (h : Adds catalog namespaceName place (types.flatMap typeComponents) before state)
    (hnext : Adds catalog namespaceName place (rest.flatMap typeComponents) state after) :
    Adds catalog namespaceName place ((types ++ rest).flatMap typeComponents) before after := by
  rw [List.flatMap_append]
  exact h.trans hnext

theorem Adds.single {type : Ty} (h : Adds catalog namespaceName place (typeComponents type) before after) :
    Adds catalog namespaceName place ([type].flatMap typeComponents) before after := by
  rwa [List.flatMap_singleton]

variable {state : DiscoveryState}

theorem discoverPattern_adds (origin : TemplateDiscoveryOrigin)
    (hplace : place origin.discoveryDeclaration origin.discoveryMember) (pattern : Pattern) :
    Adds catalog namespaceName place ((patternTypes pattern).flatMap typeComponents) state
      (discoverPattern catalog namespaceName origin pattern state) := by
  have htype : ∀ {current : DiscoveryState} (type : Ty),
      Adds catalog namespaceName place (typeComponents type) current
        (discoverType catalog namespaceName origin type current) := fun type => discoverType_adds origin hplace type
  induction pattern generalizing state with
  | wildcardPattern annotated => exact (htype annotated).single
  | nullPattern annotated => exact (htype annotated).single
  | literalPattern literal annotated => exact (htype annotated).single
  | typePattern annotated => exact (htype annotated).single
  | relationalPattern operator literal annotated => exact (htype annotated).single
  | notPattern nested annotated ih => exact (htype annotated).cons ih
  | andPattern left right annotated ihleft ihright => exact (htype annotated).cons (ihleft.append ihright)
  | orPattern left right annotated ihleft ihright => exact (htype annotated).cons (ihleft.append ihright)

theorem discoverParameters_adds (originOf : Nat → TemplateDiscoveryOrigin)
    (hplace : ∀ index, place (originOf index).discoveryDeclaration (originOf index).discoveryMember) (index : Nat)
    (parameters : List (Parameter ResolvedName)) :
    Adds catalog namespaceName place ((parameters.map Parameter.parameterAnnotation).flatMap typeComponents) state
      (discoverParameters catalog namespaceName originOf index parameters state) := by
  induction parameters generalizing state index with
  | nil => exact Adds.refl
  | cons parameter remaining ih =>
      rw [discoverParameters, List.map_cons]
      exact (discoverType_adds (originOf index) (hplace index) parameter.parameterAnnotation).cons (ih (index + 1))

theorem discoverMatchPatterns_adds (origin : TemplateDiscoveryOrigin)
    (hplace : place origin.discoveryDeclaration origin.discoveryMember)
    (patterns : List (MatchPattern ResolvedName)) :
    Adds catalog namespaceName place ((patterns.map matchPatternAnnotation).flatMap typeComponents) state
      (discoverMatchPatterns catalog namespaceName origin patterns state) := by
  induction patterns generalizing state with
  | nil => exact Adds.refl
  | cons pattern remaining ih =>
      rw [discoverMatchPatterns, List.foldl_cons, List.map_cons]
      exact (discoverType_adds origin hplace ( matchPatternAnnotation pattern)).cons ih

mutual

/-- Walking a statement visits the types in it. -/
theorem discoverStatement_adds (root : TemplateDiscoveryOrigin) {state : DiscoveryState}
    (hplace : place root.discoveryDeclaration root.discoveryMember) (index : Nat) :
    ∀ statement : Statement ResolvedName,
      Adds catalog namespaceName place ((statementTypes statement).flatMap typeComponents) state
        (discoverStatement catalog namespaceName root index statement state)
  | .bindingStatement spanValue kind target annotated value => by
      rw [discoverStatement, statementTypes]
      let origin := root.moveTo (.bindingTypeSite index) spanValue
      exact (discoverType_adds origin hplace annotated).cons
        (discoverExpression_adds origin hplace value)
  | .assignmentStatement spanValue target annotated value => by
      rw [discoverStatement, statementTypes]
      let origin := root.moveTo (.assignmentTypeSite index) spanValue
      exact (discoverType_adds origin hplace annotated).cons
        (discoverExpression_adds origin hplace value)
  | .returnStatement spanValue value => by
      rw [discoverStatement, statementTypes]
      let origin := root.moveTo (.returnTypeSite index) spanValue
      exact discoverOptional_adds origin hplace value
  | .ifStatement spanValue condition whenTrue whenFalse => by
      rw [discoverStatement, statementTypes]
      let origin := root.moveTo (.conditionTypeSite index) spanValue
      exact (discoverExpression_adds origin hplace condition).append
        ((discoverBlock_adds origin hplace 0 whenTrue).append
          (discoverOptionalBlock_adds origin hplace whenFalse))
  | .whileStatement spanValue condition body => by
      rw [discoverStatement, statementTypes]
      let origin := root.moveTo (.conditionTypeSite index) spanValue
      exact (discoverExpression_adds origin hplace condition).append
        (discoverBlock_adds origin hplace 0 body)
  | .doWhileStatement spanValue body condition => by
      rw [discoverStatement, statementTypes]
      let origin := root.moveTo (.conditionTypeSite index) spanValue
      exact (discoverBlock_adds origin hplace 0 body).append
        (discoverExpression_adds origin hplace condition)
  | .forStatement spanValue initializer condition updates body => by
      rw [discoverStatement, statementTypes]
      let origin := root.moveTo (.conditionTypeSite index) spanValue
      exact (discoverInitializer_adds origin hplace index initializer).append
        ((discoverOptional_adds origin hplace condition).append
          ((discoverUpdates_adds origin hplace index updates).append (discoverBlock_adds origin hplace 0 body)))
  | .forEachStatement spanValue kind target annotated source body => by
      rw [discoverStatement, statementTypes]
      let origin := root.moveTo (.conditionTypeSite index) spanValue
      exact (discoverType_adds origin hplace annotated).cons
        ((discoverExpression_adds origin hplace source).append
          (discoverBlock_adds origin hplace 0 body))
  | .incrementStatement spanValue target annotated => by
      rw [discoverStatement, statementTypes]
      exact (discoverType_adds root hplace annotated).single
  | .compoundAssignmentStatement spanValue operator target annotated value => by
      rw [discoverStatement, statementTypes]
      exact (discoverType_adds (root.moveTo (.assignmentTypeSite index) spanValue) hplace annotated).cons
        (discoverExpression_adds (root.moveTo (.assignmentTypeSite index) spanValue) hplace value)
  | .discardStatement spanValue value => by
      rw [discoverStatement, statementTypes]
      exact discoverExpression_adds (root.moveTo (.expressionTypeSite index) spanValue) hplace value
  | .breakStatement spanValue value => by
      rw [discoverStatement, statementTypes]
      exact discoverOptional_adds root hplace value
  | .continueStatement spanValue => by
      rw [discoverStatement, statementTypes]
      exact Adds.refl
  | .guardStatement spanValue condition block => by
      rw [discoverStatement, statementTypes]
      exact (discoverExpression_adds (root.moveTo (.conditionTypeSite index) spanValue) hplace condition).append
        (discoverBlock_adds (root.moveTo (.conditionTypeSite index) spanValue) hplace 0 block)
  | .blockStatement spanValue block => by
      rw [discoverStatement, statementTypes]
      exact discoverBlock_adds (root.moveTo (.conditionTypeSite index) spanValue) hplace 0 block
  | .expressionStatement spanValue value terminated => by
      rw [discoverStatement, statementTypes]
      exact discoverExpression_adds (root.moveTo (.expressionTypeSite index) spanValue) hplace value

theorem discoverExpression_adds (origin : TemplateDiscoveryOrigin) {state : DiscoveryState}
    (hplace : place origin.discoveryDeclaration origin.discoveryMember) : ∀ expression : Expression ResolvedName,
      Adds catalog namespaceName place ((expressionTypes expression).flatMap typeComponents) state
        (discoverExpression catalog namespaceName origin expression state)
  | .nameExpression spanValue target annotated => by
      rw [discoverExpression, expressionTypes]
      exact (discoverType_adds origin hplace annotated).single
  | .literalExpression spanValue literal annotated => by
      rw [discoverExpression, expressionTypes]
      exact (discoverType_adds origin hplace annotated).single
  | .memberAccessExpression spanValue receiver member annotated => by
      rw [discoverExpression, expressionTypes]
      exact (discoverType_adds origin hplace annotated).cons (discoverExpression_adds origin hplace receiver)
  | .methodReferenceExpression spanValue receiver member annotated => by
      rw [discoverExpression, expressionTypes]
      exact (discoverType_adds origin hplace annotated).cons (discoverExpression_adds origin hplace receiver)
  | .callExpression spanValue callee arguments annotated => by
      rw [discoverExpression, expressionTypes]
      exact (discoverType_adds origin hplace annotated).cons
        ((discoverExpression_adds origin hplace callee).append (discoverOperands_adds origin hplace arguments))
  | .unaryExpression spanValue operator value annotated => by
      rw [discoverExpression, expressionTypes]
      exact (discoverType_adds origin hplace annotated).cons (discoverExpression_adds origin hplace value)
  | .binaryExpression spanValue operator left right annotated => by
      rw [discoverExpression, expressionTypes]
      exact (discoverType_adds origin hplace annotated).cons
        ((discoverExpression_adds origin hplace left).append (discoverExpression_adds origin hplace right))
  | .isPatternExpression spanValue subject pattern annotated => by
      rw [discoverExpression, expressionTypes]
      exact (discoverType_adds origin hplace annotated).cons
        ((discoverExpression_adds origin hplace subject).append (discoverPattern_adds origin hplace pattern))
  | .conditionalExpression spanValue condition first second annotated => by
      rw [discoverExpression, expressionTypes]
      exact (discoverType_adds origin hplace annotated).cons ((discoverExpression_adds origin hplace condition).append
        ((discoverExpression_adds origin hplace first).append (discoverExpression_adds origin hplace second)))
  | .coalesceExpression spanValue left fallback annotated => by
      rw [discoverExpression, expressionTypes]
      exact (discoverType_adds origin hplace annotated).cons
        ((discoverExpression_adds origin hplace left).append (discoverExpression_adds origin hplace fallback))
  | .assignmentExpression spanValue operator target value annotated => by
      rw [discoverExpression, expressionTypes]
      exact (discoverType_adds origin hplace annotated).cons (discoverExpression_adds origin hplace value)
  | .incrementExpression spanValue isPrefixForm target annotated => by
      rw [discoverExpression, expressionTypes]
      exact (discoverType_adds origin hplace annotated).single
  | .loopExpression spanValue loop annotated => by
      rw [discoverExpression, expressionTypes]
      exact (discoverType_adds origin hplace annotated).cons (discoverStatement_adds origin hplace 0 loop)
  | .blockExpression spanValue block annotated => by
      rw [discoverExpression, expressionTypes]
      exact (discoverType_adds origin hplace annotated).cons (discoverBlock_adds origin hplace 0 block)
  | .matchExpression spanValue subjects arms annotated => by
      rw [discoverExpression, expressionTypes]
      exact (discoverType_adds origin hplace annotated).cons
        ((discoverMatchPatterns_adds origin hplace (arms.flatMap matchArmPatterns)).append
          ((discoverOperands_adds origin hplace subjects).append (discoverArms_adds origin hplace arms)))
  | .callableExpression spanValue explicit captures parameters body annotated => by
      rw [discoverExpression, expressionTypes]
      let callableOrigin := origin.enter (.callableTypeSite spanValue.sourceStart.sourceColumn) spanValue
      exact (discoverType_adds callableOrigin hplace annotated).cons
        ((discoverCaptures_adds callableOrigin hplace 0 captures).append
          ((discoverParameters_adds (fun position => callableOrigin.extend (.parameterTypeSite position))
            (fun _ => hplace) 0 parameters).append (discoverCallableBody_adds callableOrigin hplace body)))

theorem discoverBlock_adds (root : TemplateDiscoveryOrigin) {state : DiscoveryState}
    (hplace : place root.discoveryDeclaration root.discoveryMember) (index : Nat) :
    ∀ block : List (Statement ResolvedName),
      Adds catalog namespaceName place ((blockTypes block).flatMap typeComponents) state
        (discoverBlock catalog namespaceName root index block state)
  | [] => by
      rw [discoverBlock, blockTypes]
      exact Adds.refl
  | statement :: remaining => by
      rw [discoverBlock, blockTypes]
      exact (discoverStatement_adds root hplace index statement).append
        (discoverBlock_adds root hplace (index + 1) remaining)

theorem discoverOptionalBlock_adds (root : TemplateDiscoveryOrigin) {state : DiscoveryState}
    (hplace : place root.discoveryDeclaration root.discoveryMember) :
    ∀ block : Option (List (Statement ResolvedName)),
      Adds catalog namespaceName place ((optionalBlockTypes block).flatMap typeComponents) state
        (discoverOptionalBlock catalog namespaceName root block state)
  | none => by
      rw [discoverOptionalBlock, optionalBlockTypes]
      exact Adds.refl
  | some block => by
      rw [discoverOptionalBlock, optionalBlockTypes]
      exact discoverBlock_adds root hplace 0 block

theorem discoverInitializer_adds (root : TemplateDiscoveryOrigin) {state : DiscoveryState}
    (hplace : place root.discoveryDeclaration root.discoveryMember) (index : Nat) :
    ∀ initializer : Option (Statement ResolvedName),
      Adds catalog namespaceName place ((initializerTypes initializer).flatMap typeComponents) state
        (discoverInitializer catalog namespaceName root index initializer state)
  | none => by
      rw [discoverInitializer, initializerTypes]
      exact Adds.refl
  | some statement => by
      rw [discoverInitializer, initializerTypes]
      exact discoverStatement_adds root hplace index statement

theorem discoverUpdates_adds (root : TemplateDiscoveryOrigin) {state : DiscoveryState}
    (hplace : place root.discoveryDeclaration root.discoveryMember) (index : Nat) :
    ∀ updates : List (Statement ResolvedName),
      Adds catalog namespaceName place ((blockTypes updates).flatMap typeComponents) state
        (discoverUpdates catalog namespaceName root index updates state)
  | [] => by
      rw [discoverUpdates, blockTypes]
      exact Adds.refl
  | statement :: remaining => by
      rw [discoverUpdates, blockTypes]
      exact (discoverStatement_adds root hplace index statement).append
        (discoverUpdates_adds root hplace index remaining)

theorem discoverOptional_adds (origin : TemplateDiscoveryOrigin) {state : DiscoveryState}
    (hplace : place origin.discoveryDeclaration origin.discoveryMember) :
    ∀ value : Option (Expression ResolvedName),
      Adds catalog namespaceName place ((optionalTypes value).flatMap typeComponents) state
        (discoverOptional catalog namespaceName origin value state)
  | none => by
      rw [discoverOptional, optionalTypes]
      exact Adds.refl
  | some value => by
      rw [discoverOptional, optionalTypes]
      exact discoverExpression_adds origin hplace value

theorem discoverOperands_adds (origin : TemplateDiscoveryOrigin) {state : DiscoveryState}
    (hplace : place origin.discoveryDeclaration origin.discoveryMember) :
    ∀ operands : List (Expression ResolvedName),
      Adds catalog namespaceName place ((operandTypes operands).flatMap typeComponents) state
        (discoverOperands catalog namespaceName origin operands state)
  | [] => by
      rw [discoverOperands, operandTypes]
      exact Adds.refl
  | operand :: remaining => by
      rw [discoverOperands, operandTypes]
      exact (discoverExpression_adds origin hplace operand).append (discoverOperands_adds origin hplace remaining)

theorem discoverArms_adds (origin : TemplateDiscoveryOrigin) {state : DiscoveryState}
    (hplace : place origin.discoveryDeclaration origin.discoveryMember) :
    ∀ arms : List (MatchArm ResolvedName),
      Adds catalog namespaceName place ((armTypes arms).flatMap typeComponents) state
        (discoverArms catalog namespaceName origin arms state)
  | [] => by
      rw [discoverArms, armTypes]
      exact Adds.refl
  | .matchArm patterns guard body :: remaining => by
      rw [discoverArms, armTypes]
      exact (discoverOptional_adds origin hplace guard).append
        ((discoverExpression_adds origin hplace body).append (discoverArms_adds origin hplace remaining))

theorem discoverCaptures_adds (root : TemplateDiscoveryOrigin) {state : DiscoveryState}
    (hplace : place root.discoveryDeclaration root.discoveryMember) (index : Nat) :
    ∀ captures : List (Capture ResolvedName),
      Adds catalog namespaceName place ((captureTypes captures).flatMap typeComponents) state
        (discoverCaptures catalog namespaceName root index captures state)
  | [] => by
      rw [discoverCaptures, captureTypes]
      exact Adds.refl
  | .capture captureSpan mode target annotated initializer :: remaining => by
      rw [discoverCaptures, captureTypes]
      exact (discoverType_adds (root.enter (.captureTypeSite index 0) captureSpan) hplace annotated).cons
        ((discoverOptional_adds (root.enter (.captureTypeSite index 0) captureSpan) hplace initializer).append
          (discoverCaptures_adds root hplace (index + 1) remaining))

theorem discoverCallableBody_adds (origin : TemplateDiscoveryOrigin) {state : DiscoveryState}
    (hplace : place origin.discoveryDeclaration origin.discoveryMember) : ∀ body : CallableBody ResolvedName,
      Adds catalog namespaceName place ((callableBodyTypes body).flatMap typeComponents) state
        (discoverCallableBody catalog namespaceName origin body state)
  | .callableExpressionBody expression => by
      rw [discoverCallableBody, callableBodyTypes]
      exact discoverExpression_adds origin hplace expression
  | .callableBlockBody block => by
      rw [discoverCallableBody, callableBodyTypes]
      exact discoverBlock_adds origin hplace 0 block

end

theorem discoverFunction_adds {owner : ResolvedName} {member : Option ResolvedName}
    (hplace : place owner member) (span : SourceSpan) (name : ResolvedName) (annotated : Ty)
    (returnSyntax : TypeSyntax) (parameters : List (Parameter ResolvedName)) (body : List (Statement ResolvedName))
    (isStatic : Bool) (access : Access) :
    Adds catalog namespaceName place ((declarationTypes blockTypes (.functionDeclaration span name annotated
        returnSyntax parameters body isStatic access)).flatMap typeComponents) state
      (discoverFunction catalog namespaceName owner member
        (.functionDeclaration span name annotated returnSyntax parameters body isStatic access) state) := by
  let root : TemplateDiscoveryOrigin := ⟨owner, member, [.functionSignatureSite], span⟩
  rw [declarationTypes]
  exact (discoverType_adds root hplace (functionResult annotated)).cons
    ((discoverParameters_adds (fun index => { root with discoverySites := [.parameterTypeSite index] })
      (fun _ => hplace) 0 parameters).append (discoverBlock_adds root hplace 0 body))

mutual

theorem discoverMember_adds {owner : ResolvedName} {state : DiscoveryState} (hplace : ∀ member, place owner member) :
    ∀ member : Declaration ResolvedName,
      Adds catalog namespaceName place ((declarationTypes blockTypes member).flatMap typeComponents) state
        (discoverMember catalog namespaceName owner member state)
  | .functionDeclaration span name annotated returnSyntax parameters body isStatic access => by
      rw [discoverMember]
      exact discoverFunction_adds (hplace _) ..
  | .typeDeclaration span name annotated members => by
      rw [discoverMember, declarationTypes]
      exact (discoverType_adds ⟨owner, some name, [.declarationTypeSite], span⟩ (hplace _) annotated).cons
        (discoverMembers_adds hplace members)
  | .templateTypeDeclaration span name annotated parameters members => by
      rw [discoverMember, declarationTypes]
      exact Adds.of_skipped _
  | .enumDeclaration span name annotated underlying => by
      rw [discoverMember, declarationTypes]
      exact Adds.refl

theorem discoverMembers_adds {owner : ResolvedName} {state : DiscoveryState} (hplace : ∀ member, place owner member) :
    ∀ members : List (Declaration ResolvedName),
      Adds catalog namespaceName place ((memberTypes blockTypes members).flatMap typeComponents) state
        (discoverMembers catalog namespaceName owner members state)
  | [] => by
      rw [discoverMembers, memberTypes]
      exact Adds.refl
  | member :: remaining => by
      rw [discoverMembers, memberTypes]
      exact (discoverMember_adds hplace member).append (discoverMembers_adds hplace remaining)

end

theorem discoverTop_adds {declaration : Declaration ResolvedName}
    (hplace : ∀ member, place (declarationName declaration) member) :
    Adds catalog namespaceName place ((declarationTypes blockTypes declaration).flatMap typeComponents) state
      (discoverTop catalog namespaceName state declaration) := by
  cases declaration with
  | functionDeclaration span name annotated returnSyntax parameters body isStatic access =>
      exact discoverFunction_adds (hplace _) ..
  | typeDeclaration span name annotated members =>
      rw [discoverTop, declarationTypes]
      exact (discoverType_adds ⟨name, none, [.declarationTypeSite], span⟩ (hplace _) annotated).cons
        (discoverMembers_adds hplace members)
  | templateTypeDeclaration span name annotated parameters members =>
      rw [discoverTop, declarationTypes]
      exact Adds.of_skipped _
  | enumDeclaration span name annotated underlying =>
      rw [discoverTop, declarationTypes]
      exact Adds.refl

theorem foldl_discoverTop_adds {declarations : List (Declaration ResolvedName)}
    (hplace : ∀ declaration ∈ declarations, ∀ member, place (declarationName declaration) member) :
    Adds catalog namespaceName place ((memberTypes blockTypes declarations).flatMap typeComponents) state
      (declarations.foldl (discoverTop catalog namespaceName) state) := by
  induction declarations generalizing state with
  | nil =>
      rw [memberTypes]
      exact Adds.refl
  | cons first remaining ih =>
      obtain ⟨hfirst, hremaining⟩ := List.forall_mem_cons.mp hplace
      rw [List.foldl_cons, memberTypes]
      exact (discoverTop_adds hfirst).append (ih hremaining)

end Adds

/-! ## The order of the source -/

/-- The types in a part of code, in the order in which they are walked. -/
def partTypes : CodePart ResolvedName → List Ty
  | .statement single => statementTypes single
  | .expression value => expressionTypes value
  | .arm (.matchArm patterns guard body) =>
      patterns.map matchPatternAnnotation ++ (optionalTypes guard ++ expressionTypes body)
  | .capture (.capture _ _ _ annotated initializer) => annotated :: optionalTypes initializer

/-- The types in a body in the order of the source: those of a part before those of its children. -/
def sourceTypes (body : List (Statement ResolvedName)) : List Ty :=
  (body.map CodePart.statement).flatMap fun part => part.preorder.flatMap annotations

section SourceOrder

theorem blockTypes_eq (block : List (Statement ResolvedName)) :
    blockTypes block = (block.map CodePart.statement).flatMap partTypes := by
  induction block with
  | nil => rfl
  | cons first remaining ih => simp [blockTypes, ih, partTypes]

theorem operandTypes_eq (operands : List (Expression ResolvedName)) :
    operandTypes operands = (operands.map CodePart.expression).flatMap partTypes := by
  induction operands with
  | nil => rfl
  | cons first remaining ih => simp [operandTypes, ih, partTypes]

theorem captureTypes_eq (captures : List (Capture ResolvedName)) :
    captureTypes captures = (captures.map CodePart.capture).flatMap partTypes := by
  induction captures with
  | nil => rfl
  | cons first remaining ih =>
      cases first
      simp [captureTypes, ih, partTypes]

theorem optionalTypes_eq (value : Option (Expression ResolvedName)) :
    optionalTypes value = (value.toList.map CodePart.expression).flatMap partTypes := by
  cases value <;> simp [optionalTypes, partTypes]

theorem initializerTypes_eq (initializer : Option (Statement ResolvedName)) :
    initializerTypes initializer = (initializer.toList.map CodePart.statement).flatMap partTypes := by
  cases initializer <;> simp [initializerTypes, partTypes]

theorem optionalBlockTypes_eq (block : Option (List (Statement ResolvedName))) :
    optionalBlockTypes block = ((block.getD []).map CodePart.statement).flatMap partTypes := by
  cases block with
  | none => rfl
  | some block => exact blockTypes_eq block

theorem callableBodyTypes_eq (body : CallableBody ResolvedName) :
    callableBodyTypes body = (callableBodyParts body).flatMap partTypes := by
  cases body with
  | callableExpressionBody expression => simp [callableBodyTypes, callableBodyParts, partTypes]
  | callableBlockBody block => exact blockTypes_eq block

/-- The patterns of all arms, then what the arms compute: the same types as arm by arm. -/
theorem armTypes_perm (arms : List (MatchArm ResolvedName)) :
    List.Perm ((arms.flatMap matchArmPatterns).map matchPatternAnnotation ++ armTypes arms)
      ((arms.map CodePart.arm).flatMap partTypes) := by
  induction arms with
  | nil => exact .refl _
  | cons first remaining ih =>
      cases first with
      | matchArm patterns guard body =>
          rw [List.flatMap_cons, List.map_append, armTypes, List.map_cons, List.flatMap_cons, matchArmPatterns,
            partTypes, List.append_assoc, List.append_assoc]
          refine List.Perm.append_left _ ?_
          rw [← List.append_assoc (optionalTypes guard)]
          refine (List.perm_append_comm_assoc _ _ _).trans ?_
          exact List.Perm.append_left _ ih

/-- The types of a part are its own and those of its children. -/
theorem partTypes_perm_step (part : CodePart ResolvedName) :
    List.Perm (partTypes part) (annotations part ++ part.children.flatMap partTypes) := by
  cases part with
  | statement single =>
      cases single <;>
        simp [partTypes, annotations, CodePart.children, statementTypes, blockTypes_eq, optionalTypes_eq,
          initializerTypes_eq, optionalBlockTypes_eq]
  | expression value =>
      cases value with
      | isPatternExpression span subject pattern annotated =>
          simp [partTypes, annotations, CodePart.children, expressionTypes, List.perm_append_comm]
      | matchExpression span subjects arms annotated =>
          rw [partTypes, expressionTypes, annotations, CodePart.children, operandTypes_eq, List.flatMap_append]
          -- The patterns move behind the subjects, to their arms.
          exact ((List.perm_append_comm_assoc _ _ _).trans ((armTypes_perm arms).append_left _)).cons _
      | callableExpression span explicit captures parameters body annotated =>
          rw [partTypes, expressionTypes, annotations, CodePart.children, captureTypes_eq, callableBodyTypes_eq,
            List.flatMap_append]
          -- The parameters move before the captures.
          exact (List.perm_append_comm_assoc _ _ _).cons _
      | _ =>
          simp [partTypes, annotations, CodePart.children, expressionTypes, blockTypes_eq, operandTypes_eq]
  | arm alternative =>
      cases alternative
      simp [partTypes, annotations, CodePart.children, optionalTypes_eq]
  | capture captured =>
      cases captured
      simp [partTypes, annotations, CodePart.children, optionalTypes_eq]

theorem blockTypes_perm (body : List (Statement ResolvedName)) : List.Perm (blockTypes body) (sourceTypes body) := by
  rw [blockTypes_eq]
  exact List.Perm.flatMap_left _ fun part _ => traversal_perm partTypes_perm_step part

mutual

theorem declarationTypes_perm : ∀ declaration : Declaration ResolvedName,
    List.Perm (declarationTypes blockTypes declaration) (declarationTypes sourceTypes declaration)
  | .functionDeclaration span name annotated returnSyntax parameters body isStatic access => by
      rw [declarationTypes, declarationTypes]
      exact ((blockTypes_perm body).append_left _).cons _
  | .typeDeclaration span name annotated members => by
      rw [declarationTypes, declarationTypes]
      exact (memberTypes_perm members).cons _
  | .templateTypeDeclaration span name annotated parameters members => by
      rw [declarationTypes, declarationTypes]
  | .enumDeclaration span name annotated underlying => by
      rw [declarationTypes, declarationTypes]

theorem memberTypes_perm : ∀ members : List (Declaration ResolvedName),
    List.Perm (memberTypes blockTypes members) (memberTypes sourceTypes members)
  | [] => by rw [memberTypes, memberTypes]
  | member :: remaining => by
      rw [memberTypes, memberTypes]
      exact (declarationTypes_perm member).append (memberTypes_perm remaining)

end

end SourceOrder

/-! ## Exactness -/

/-- The closed applications of the templates of a program in some types, one for each occurrence. -/
def closedApplications (tree : SyntaxTree ResolvedName) (types : List Ty) : List TemplateApplication :=
  (types.flatMap typeComponents).filterMap (closedApplication (buildTemplateCatalog tree) tree.syntaxNamespace)

/-- The demands of a program: layouts of the closed applications in its types, in the order of the walk and as often
as in the source, each with the text of its origin, which is in a declaration of the program. -/
structure ExactDiscovery (tree : SyntaxTree ResolvedName) (discovery : TemplateDemandDiscovery) : Prop where
  walked : discovery.discoveredTemplateDemands.map (·.specializationDemandApplication) =
    closedApplications tree (memberTypes blockTypes tree.syntaxDeclarations)
  source : List.Perm (discovery.discoveredTemplateDemands.map (·.specializationDemandApplication))
    (closedApplications tree (memberTypes sourceTypes tree.syntaxDeclarations))
  layouts : ∀ demand ∈ discovery.discoveredTemplateDemands, demand.specializationDemandScope = .templateLayoutDemand
  origins : discovery.discoveredTemplateDemands.map (·.specializationDemandOrigin) =
    discovery.discoveredTemplateOrigins.map renderTemplateDiscoveryOrigin
  places : ∀ origin ∈ discovery.discoveredTemplateOrigins, ∃ declaration ∈ tree.syntaxDeclarations,
    declarationName declaration = origin.discoveryDeclaration
  counts : discovery.templateDiscoveryStatistics.discoveredTemplateApplications =
      discovery.discoveredTemplateDemands.length ∧
    discovery.templateDiscoveryStatistics.visitedTemplateTypeNodes =
      ((memberTypes sourceTypes tree.syntaxDeclarations).flatMap typeComponents).length

section Exactness

variable (tree : SyntaxTree ResolvedName)

theorem discovered_adds :
    Adds (buildTemplateCatalog tree) tree.syntaxNamespace
      (fun owner _ => ∃ declaration ∈ tree.syntaxDeclarations, declarationName declaration = owner)
      ((memberTypes blockTypes tree.syntaxDeclarations).flatMap typeComponents) emptyState
      (tree.syntaxDeclarations.foldl (discoverTop (buildTemplateCatalog tree) tree.syntaxNamespace) emptyState) :=
  foldl_discoverTop_adds fun declaration hmem _ => ⟨declaration, hmem, rfl⟩

/-- What was found, in the order in which it was found. -/
theorem discovered_found : ∃ new : List (TemplateApplication × TemplateDiscoveryOrigin),
    (discoverTemplateDemands tree).discoveredTemplateDemands = new.map layoutDemand ∧
    (discoverTemplateDemands tree).discoveredTemplateOrigins = new.map Prod.snd ∧
    new.map Prod.fst = closedApplications tree (memberTypes blockTypes tree.syntaxDeclarations) ∧
    ∀ each ∈ new, ∃ declaration ∈ tree.syntaxDeclarations,
      declarationName declaration = each.2.discoveryDeclaration := by
  obtain ⟨new, hdemands, horigins, happlications, hplaces⟩ := (discovered_adds tree).found
  refine ⟨new, ?_, ?_, happlications, hplaces⟩
  · rw [discoverTemplateDemands, hdemands]
    simp [emptyState]
  · rw [discoverTemplateDemands, horigins]
    simp [emptyState]

theorem discovered_walked :
    (discoverTemplateDemands tree).discoveredTemplateDemands.map (·.specializationDemandApplication) =
      closedApplications tree (memberTypes blockTypes tree.syntaxDeclarations) := by
  obtain ⟨new, hdemands, -, happlications, -⟩ := discovered_found tree
  rw [hdemands, List.map_map]
  exact happlications

/-- One demand for each occurrence of a closed application in the types of the program, and no other. -/
theorem discoverTemplateDemands_exact : ExactDiscovery tree (discoverTemplateDemands tree) := by
  have hperm := (memberTypes_perm tree.syntaxDeclarations).flatMap_right typeComponents
  have hwalked := discovered_walked tree
  have hvisited := (discovered_adds tree).visited
  obtain ⟨new, hdemands, horigins, -, hplaces⟩ := discovered_found tree
  refine ⟨hwalked, ?_, fun demand hmem => ?_, ?_, fun origin hmem => ?_, rfl, ?_⟩
  · rw [hwalked]
    exact hperm.filterMap _
  · rw [hdemands] at hmem
    obtain ⟨each, -, rfl⟩ := List.mem_map.mp hmem
    rfl
  · rw [hdemands, horigins, List.map_map, List.map_map]
    rfl
  · rw [horigins] at hmem
    obtain ⟨each, heach, rfl⟩ := List.mem_map.mp hmem
    exact hplaces each heach
  · rw [← hperm.length_eq]
    exact hvisited.trans (Nat.zero_add _)

end Exactness

/-! ## Matches -/

/-- The type `Box<argument>`. -/
def boxOf (argument : Identifier) : Ty :=
  .namedType ["Box"] [.typeTemplateArgument (.namedType [argument] [])]

/-- A template `Box`, and a function that matches a subject of the type `Box<int>` with one arm, whose pattern has
the type `Box<bool>`. -/
def matchProgram : SyntaxTree ResolvedName where
  syntaxNamespace := none
  syntaxDeclarations := [
    .templateTypeDeclaration emptySpan ⟨1, "Box"⟩ (.namedType ["Box"] []) [] [],
    .functionDeclaration emptySpan ⟨2, "Main"⟩ (.functionType [] (.namedType ["int"] [])) .autoType []
      [.expressionStatement emptySpan (.matchExpression emptySpan
        [.nameExpression emptySpan ⟨3, "subject"⟩ (boxOf "int")]
        [.matchArm [.matchWildcardPattern (boxOf "bool")] none
          (.literalExpression emptySpan (.integerLiteral 1) (.namedType ["int"] []))]
        (.namedType ["int"] [])) true] false .publicAccess]

/-- The patterns of a match are walked before its subjects: demands do not come in the order of the source. -/
theorem match_is_not_in_source_order :
    ¬∀ tree : SyntaxTree ResolvedName,
      (discoverTemplateDemands tree).discoveredTemplateDemands.map (·.specializationDemandApplication) =
        closedApplications tree (memberTypes sourceTypes tree.syntaxDeclarations) := by
  intro hclaim
  have hsource : memberTypes sourceTypes matchProgram.syntaxDeclarations =
      [.namedType ["int"] [], .namedType ["int"] [], boxOf "int", boxOf "bool", .namedType ["int"] []] := by
    simp [matchProgram, memberTypes, declarationTypes, sourceTypes, CodePart.preorder_eq, CodePart.children,
      annotations, functionResult, matchPatternAnnotation]
  have happlications := (discovered_walked matchProgram).symm.trans (hclaim matchProgram)
  rw [hsource] at happlications
  exact absurd happlications (by decide)

end Tala.Frontend
