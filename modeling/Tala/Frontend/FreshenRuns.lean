import Tala.Frontend.FreshenUses

/-!
# `Frontend.FreshenRuns` — freshening renames

The traversal of a tree is determined by its uses: if every use gets the name a renaming gives it, the result is
the renamed tree. For a declaration in which no reference stands before its binder, the renaming is the final map.
-/

namespace Tala.Frontend

open Tala.Library Tala.Syntax

/-! ## Runs along the uses -/

def runFresh {α : Type} (action : Fresh α) (state : FreshState) : α × FreshState := action state

theorem runFresh_bind {α β : Type} (action : Fresh α) (continuation : α → Fresh β) (state : FreshState) :
    runFresh (action >>= continuation) state =
      runFresh (continuation (runFresh action state).1) (runFresh action state).2 := rfl

/-- The state after the uses: definitions change it, references do not. -/
def afterUses : List NameUse → FreshState → FreshState
  | [], state => state
  | .defined name :: rest, state => afterUses rest (runFresh (freshDefinition name) state).2
  | .referred _ :: rest, state => afterUses rest state

/-- Every use gets the name that the renaming gives it. -/
def Follows (ρ : ResolvedName → ResolvedName) : List NameUse → FreshState → Prop
  | [], _ => True
  | .defined name :: rest, state =>
      (runFresh (freshDefinition name) state).1 = ρ name ∧ Follows ρ rest (runFresh (freshDefinition name) state).2
  | .referred name :: rest, state => (runFresh (freshReference name) state).1 = ρ name ∧ Follows ρ rest state

theorem afterUses_append (first second : List NameUse) (state : FreshState) :
    afterUses (first ++ second) state = afterUses second (afterUses first state) := by
  fun_induction afterUses first state with
  | case1 state => rfl
  | case2 name rest state ih => simp [afterUses, ih]
  | case3 name rest state ih => simp [afterUses, ih]

theorem follows_append {ρ : ResolvedName → ResolvedName} {first second : List NameUse} {state : FreshState} :
    Follows ρ (first ++ second) state ↔ Follows ρ first state ∧ Follows ρ second (afterUses first state) := by
  fun_induction Follows ρ first state with
  | case1 state => simp [afterUses]
  | case2 state name rest ih => simp [Follows, afterUses, ih, and_assoc]
  | case3 state name rest ih => simp [Follows, afterUses, ih, and_assoc]

/-- An action follows the uses and gives the value, whenever the uses get the names of the renaming. -/
def Performs {α : Type} (ρ : ResolvedName → ResolvedName) (action : Fresh α) (uses : List NameUse) (value : α) :
    Prop :=
  ∀ state, Follows ρ uses state → runFresh action state = (value, afterUses uses state)

section Performs

variable {α β : Type} {ρ : ResolvedName → ResolvedName}

theorem Performs.pure (value : α) : Performs ρ (pure value) [] value := fun _ _ => rfl

theorem Performs.bind {action : Fresh α} {continuation : α → Fresh β} {first second : List NameUse} {value : α}
    {result : β} (h : Performs ρ action first value) (hk : Performs ρ (continuation value) second result) :
    Performs ρ (action >>= continuation) (first ++ second) result := by
  intro state hfollows
  obtain ⟨hfirst, hsecond⟩ := follows_append.mp hfollows
  rw [runFresh_bind, h state hfirst, afterUses_append]
  exact hk _ hsecond

/-- The last action of a node, whose result the node is built from. -/
theorem Performs.last {action : Fresh α} {uses : List NameUse} {value : α} (h : Performs ρ action uses value)
    (build : α → β) : Performs ρ (action >>= fun result => Pure.pure (build result)) uses (build value) := by
  have hbind : Performs ρ (action >>= fun result => Pure.pure (build result)) (uses ++ []) (build value) :=
    h.bind (Performs.pure (build value))
  rwa [List.append_nil] at hbind

theorem performs_definition (name : ResolvedName) :
    Performs ρ (freshDefinition name) [.defined name] (ρ name) :=
  fun _ hfollows => Prod.ext hfollows.1 rfl

theorem performs_reference (name : ResolvedName) : Performs ρ (freshReference name) [.referred name] (ρ name) :=
  fun _ hfollows => Prod.ext hfollows.1 rfl

theorem performs_value (value : TemplateValue) :
    Performs ρ (freshValue value) (valueUses value) (renameValue ρ value) := by
  cases value with
  | templateValueParameter name => exact (performs_reference name).last _
  | _ => exact .pure _

mutual

theorem performs_type (valueType : Ty) :
    Performs ρ (freshType valueType) (typeUses valueType) (renameType ρ valueType) := by
  cases valueType with
  | namedType name arguments => exact (performs_arguments arguments).last _
  | functionType parameters result => exact (performs_types parameters).bind ((performs_type result).last _)
  | typeVariable name => exact (performs_reference name).last _
  | errorType => exact .pure _

theorem performs_types (types : List Ty) :
    Performs ρ (freshTypes types) (typesUses types) (renameTypes ρ types) := by
  cases types with
  | nil => exact .pure _
  | cons valueType remaining => exact (performs_type valueType).bind ((performs_types remaining).last _)

theorem performs_argument (argument : TemplateArgument) :
    Performs ρ (freshArgument argument) (argumentUses argument) (renameArgument ρ argument) := by
  cases argument with
  | typeTemplateArgument valueType => exact (performs_type valueType).last _
  | valueTemplateArgument value => exact (performs_value value).last _

theorem performs_arguments (arguments : List TemplateArgument) :
    Performs ρ (freshArguments arguments) (argumentsUses arguments) (renameArguments ρ arguments) := by
  cases arguments with
  | nil => exact .pure _
  | cons argument remaining => exact (performs_argument argument).bind ((performs_arguments remaining).last _)

end

theorem performs_pattern (pattern : Pattern) :
    Performs ρ (freshPattern pattern) (patternUses pattern) (renamePattern ρ pattern) := by
  induction pattern with
  | notPattern nested annotated ih => exact ih.bind ((performs_type annotated).last _)
  | andPattern left right annotated ihLeft ihRight =>
      exact ihLeft.bind (ihRight.bind ((performs_type annotated).last _))
  | orPattern left right annotated ihLeft ihRight =>
      exact ihLeft.bind (ihRight.bind ((performs_type annotated).last _))
  | wildcardPattern annotated => exact (performs_type annotated).last _
  | nullPattern annotated => exact (performs_type annotated).last _
  | literalPattern literal annotated => exact (performs_type annotated).last _
  | typePattern annotated => exact (performs_type annotated).last _
  | relationalPattern operator literal annotated =>
      exact (performs_type annotated).last _

theorem performs_matchPattern (pattern : MatchPattern ResolvedName) :
    Performs ρ (freshMatchPattern pattern) (matchPatternUses pattern) (renameMatchPattern ρ pattern) := by
  cases pattern with
  | matchWildcardPattern annotated => exact (performs_type annotated).last _
  | matchLiteralPattern literal annotated => exact (performs_type annotated).last _
  | matchNullPattern annotated => exact (performs_type annotated).last _
  | matchTypePattern binding annotated =>
      cases binding with
      | none => exact (performs_type annotated).last _
      | some name => exact (performs_definition name).bind ((performs_type annotated).last _)
  | matchCasePattern member annotated => exact (performs_type annotated).last _

theorem performs_matchPatterns (patterns : List (MatchPattern ResolvedName)) :
    Performs ρ (freshMatchPatterns patterns) (matchPatternsUses patterns) (renameMatchPatterns ρ patterns) := by
  induction patterns with
  | nil => exact .pure _
  | cons pattern remaining ih => exact (performs_matchPattern pattern).bind (ih.last _)

theorem performs_parameters (parameters : List (Parameter ResolvedName)) :
    Performs ρ (freshParameters parameters) (parametersUses parameters) (renameParameters ρ parameters) := by
  induction parameters with
  | nil => exact .pure _
  | cons parameter remaining ih =>
      have hparameter : Performs ρ (freshParameterDefinition parameter) (parameterUses parameter)
          (renameParameter ρ parameter) :=
        (performs_definition parameter.parameterName).bind ((performs_type _).last _)
      exact hparameter.bind (ih.last _)

mutual

theorem performs_block (block : List (Statement ResolvedName)) :
    Performs ρ (freshBlock block) (blockUses block) (renameBlock ρ block) := by
  cases block with
  | nil => exact .pure _
  | cons statement remaining => exact (performs_statement statement).bind ((performs_block remaining).last _)

theorem performs_else (block : Option (List (Statement ResolvedName))) :
    Performs ρ (freshElse block) (elseUses block) (renameElse ρ block) := by
  cases block with
  | none => exact .pure _
  | some block => exact (performs_block block).last _

theorem performs_initializer (initializer : Option (Statement ResolvedName)) :
    Performs ρ (freshInitializer initializer) (initializerUses initializer) (renameInitializer ρ initializer) := by
  cases initializer with
  | none => exact .pure _
  | some statement => exact (performs_statement statement).last _

theorem performs_statement (statement : Statement ResolvedName) :
    Performs ρ (freshStatement statement) (statementUses statement) (renameStatement ρ statement) := by
  cases statement with
  | bindingStatement span kind name annotated value =>
      exact (performs_expression value).bind ((performs_definition name).bind ((performs_type annotated).last _))
  | assignmentStatement span name annotated value =>
      exact (performs_reference name).bind ((performs_type annotated).bind ((performs_expression value).last _))
  | returnStatement span value => exact (performs_optional value).last _
  | ifStatement span condition whenTrue whenFalse =>
      exact (performs_expression condition).bind ((performs_block whenTrue).bind ((performs_else whenFalse).last _))
  | whileStatement span condition body => exact (performs_expression condition).bind ((performs_block body).last _)
  | doWhileStatement span body condition => exact (performs_block body).bind ((performs_expression condition).last _)
  | forStatement span initializer condition updates body =>
      exact (performs_initializer initializer).bind ((performs_optional condition).bind (
        (performs_block updates).bind ((performs_block body).last _)))
  | forEachStatement span kind name annotated source body =>
      exact (performs_expression source).bind ((performs_definition name).bind (
        (performs_type annotated).bind ((performs_block body).last _)))
  | incrementStatement span name annotated => exact (performs_reference name).bind ((performs_type annotated).last _)
  | compoundAssignmentStatement span operator name annotated value =>
      exact (performs_reference name).bind ((performs_type annotated).bind ((performs_expression value).last _))
  | discardStatement span value => exact (performs_expression value).last _
  | breakStatement span value => exact (performs_optional value).last _
  | continueStatement span => exact .pure _
  | guardStatement span condition block => exact (performs_expression condition).bind ((performs_block block).last _)
  | blockStatement span block => exact (performs_block block).last _
  | expressionStatement span value terminated => exact (performs_expression value).last _

theorem performs_optional (value : Option (Expression ResolvedName)) :
    Performs ρ (freshOptional value) (optionalUses value) (renameOptional ρ value) := by
  cases value with
  | none => exact .pure _
  | some expression => exact (performs_expression expression).last _

theorem performs_expressions (values : List (Expression ResolvedName)) :
    Performs ρ (freshExpressions values) (expressionsUses values) (renameExpressions ρ values) := by
  cases values with
  | nil => exact .pure _
  | cons expression remaining => exact (performs_expression expression).bind ((performs_expressions remaining).last _)

theorem performs_expression (expression : Expression ResolvedName) :
    Performs ρ (freshExpression expression) (expressionUses expression) (renameExpression ρ expression) := by
  cases expression with
  | nameExpression span name annotated => exact (performs_reference name).bind ((performs_type annotated).last _)
  | literalExpression span literal annotated => exact (performs_type annotated).last _
  | memberAccessExpression span receiver member annotated =>
      exact (performs_expression receiver).bind ((performs_type annotated).last _)
  | methodReferenceExpression span receiver member annotated =>
      exact (performs_expression receiver).bind ((performs_type annotated).last _)
  | callExpression span callee arguments annotated => exact (performs_expression callee).bind (
        (performs_expressions arguments).bind ((performs_type annotated).last _))
  | unaryExpression span operator value annotated =>
      exact (performs_expression value).bind ((performs_type annotated).last _)
  | binaryExpression span operator left right annotated =>
      exact (performs_expression left).bind ((performs_expression right).bind ((performs_type annotated).last _))
  | isPatternExpression span subject pattern annotated =>
      exact (performs_expression subject).bind ((performs_pattern pattern).bind ((performs_type annotated).last _))
  | conditionalExpression span condition first second annotated =>
      exact (performs_expression condition).bind ((performs_expression first).bind (
        (performs_expression second).bind ((performs_type annotated).last _)))
  | coalesceExpression span left fallback annotated =>
      exact (performs_expression left).bind ((performs_expression fallback).bind ((performs_type annotated).last _))
  | assignmentExpression span operator name value annotated =>
      exact (performs_reference name).bind ((performs_expression value).bind ((performs_type annotated).last _))
  | incrementExpression span isPrefixForm name annotated =>
      exact (performs_reference name).bind ((performs_type annotated).last _)
  | loopExpression span loop annotated => exact (performs_statement loop).bind ((performs_type annotated).last _)
  | blockExpression span block annotated => exact (performs_block block).bind ((performs_type annotated).last _)
  | matchExpression span subjects arms annotated =>
      exact (performs_expressions subjects).bind ((performs_matchArms arms).bind ((performs_type annotated).last _))
  | callableExpression span explicit captures parameters body annotated =>
      exact (performs_captures captures).bind ((performs_parameters parameters).bind (
        (performs_callableBody body).bind ((performs_type annotated).last _)))

theorem performs_matchArm (arm : MatchArm ResolvedName) :
    Performs ρ (freshMatchArm arm) (matchArmUses arm) (renameMatchArm ρ arm) := by
  cases arm with
  | matchArm patterns guard body => exact (performs_matchPatterns patterns).bind (
        (performs_optional guard).bind ((performs_expression body).last _))

theorem performs_matchArms (arms : List (MatchArm ResolvedName)) :
    Performs ρ (freshMatchArms arms) (matchArmsUses arms) (renameMatchArms ρ arms) := by
  cases arms with
  | nil => exact .pure _
  | cons arm remaining => exact (performs_matchArm arm).bind ((performs_matchArms remaining).last _)

theorem performs_capture (capture : Capture ResolvedName) :
    Performs ρ (freshCaptureDefinition capture) (captureUses capture) (renameCapture ρ capture) := by
  cases capture with
  | capture span mode name annotated initializer => exact (performs_optional initializer).bind (
        (performs_definition name).bind ((performs_type annotated).last _))

theorem performs_captures (captures : List (Capture ResolvedName)) :
    Performs ρ (freshCaptures captures) (capturesUses captures) (renameCaptures ρ captures) := by
  cases captures with
  | nil => exact .pure _
  | cons capture remaining => exact (performs_capture capture).bind ((performs_captures remaining).last _)

theorem performs_callableBody (body : CallableBody ResolvedName) :
    Performs ρ (freshCallableBody body) (callableBodyUses body) (renameCallableBody ρ body) := by
  cases body with
  | callableExpressionBody expression => exact (performs_expression expression).last _
  | callableBlockBody block => exact (performs_block block).last _

end

theorem performs_memberNames (members : List (Declaration ResolvedName)) :
    Performs ρ (reserveDeclarationNames members) (memberNames members) () := by
  induction members with
  | nil => exact .pure _
  | cons member remaining ih =>
      cases member with
      | typeDeclaration span name annotated members =>
          exact ((performs_definition name).last fun _ => ()).bind ih
      | functionDeclaration span name annotated returnSyntax parameters body isStatic access =>
          exact ((performs_definition name).last fun _ => ()).bind ih
      | templateTypeDeclaration span name annotated parameters members => exact (Performs.pure ()).bind ih
      | enumDeclaration span name annotated underlying => exact (Performs.pure ()).bind ih

mutual

/-- **The traversal of a declaration renames it.** -/
theorem performs_declaration (declaration : Declaration ResolvedName) :
    Performs ρ (freshDeclaration declaration) (declarationUses declaration) (renameDeclaration ρ declaration) := by
  cases declaration with
  | typeDeclaration span name annotated members =>
      exact (performs_definition name).bind ((performs_type annotated).bind
        ((performs_memberNames members).bind ((performs_declarations members).last _)))
  | functionDeclaration span name annotated returnSyntax parameters body isStatic access =>
      exact (performs_definition name).bind ((performs_parameters parameters).bind
        ((performs_type annotated).bind ((performs_block body).last _)))
  | templateTypeDeclaration span name annotated parameters members => exact .pure _
  | enumDeclaration span name annotated underlying => exact .pure _

theorem performs_declarations (members : List (Declaration ResolvedName)) :
    Performs ρ (freshDeclarations members) (declarationsUses members) (renameDeclarations ρ members) := by
  cases members with
  | nil => exact .pure _
  | cons member remaining => exact (performs_declaration member).bind ((performs_declarations remaining).last _)

end

end Performs

/-! ## The symbols given -/

def definedSymbols (uses : List NameUse) : List Int :=
  uses.filterMap fun use =>
    match use with
    | .defined name => some name.resolvedSymbol
    | .referred _ => none

@[simp] theorem definedSymbols_nil : definedSymbols [] = [] := rfl

@[simp] theorem definedSymbols_defined (name : ResolvedName) (uses : List NameUse) :
    definedSymbols (.defined name :: uses) = name.resolvedSymbol :: definedSymbols uses := rfl

@[simp] theorem definedSymbols_referred (name : ResolvedName) (uses : List NameUse) :
    definedSymbols (.referred name :: uses) = definedSymbols uses := rfl

@[simp] theorem definedSymbols_append (first second : List NameUse) :
    definedSymbols (first ++ second) = definedSymbols first ++ definedSymbols second :=
  List.filterMap_append

variable {symbol : Int}

theorem mem_definedSymbols {uses : List NameUse} :
    symbol ∈ definedSymbols uses ↔ ∃ name, .defined name ∈ uses ∧ name.resolvedSymbol = symbol := by
  induction uses with
  | nil => simp
  | cons use rest ih =>
      cases use with
      | defined name => simp [ih, eq_comm]
      | referred name => simp [ih]

/-- The final name of an occurrence. -/
def givenName (state : FreshState) (name : ResolvedName) : ResolvedName :=
  (state.freshMap.find name.resolvedSymbol).getD name

/-- The map is injective, into the symbols given so far, and onto them. -/
structure Issued (base : Int) (state : FreshState) : Prop where
  start : base ≤ state.freshNext
  range : ∀ symbol given, state.freshMap.find symbol = some given →
    base ≤ given.resolvedSymbol ∧ given.resolvedSymbol < state.freshNext
  apart : ∀ first second given other, state.freshMap.find first = some given →
    state.freshMap.find second = some other → given.resolvedSymbol = other.resolvedSymbol → first = second
  full : ∀ symbol, base ≤ symbol → symbol < state.freshNext →
    ∃ source given, state.freshMap.find source = some given ∧ given.resolvedSymbol = symbol

section State

variable {state : FreshState} {name : ResolvedName}

theorem runFresh_definition_seen {existing : ResolvedName}
    (h : state.freshMap.find name.resolvedSymbol = some existing) :
    runFresh (freshDefinition name) state = (existing, state) := by
  simp [runFresh, freshDefinition, h]

theorem runFresh_definition_new (h : state.freshMap.find name.resolvedSymbol = none) :
    runFresh (freshDefinition name) state = (⟨state.freshNext, name.resolvedSpelling⟩,
      ⟨state.freshNext + 1,
        state.freshMap.insert name.resolvedSymbol ⟨state.freshNext, name.resolvedSpelling⟩⟩) := by
  simp [runFresh, freshDefinition, h]

/-- A definition remembers what it gave. -/
theorem find_definition_self : ((runFresh (freshDefinition name) state).2).freshMap.find name.resolvedSymbol =
    some (runFresh (freshDefinition name) state).1 := by
  cases h : state.freshMap.find name.resolvedSymbol with
  | none => simp [runFresh_definition_new h]
  | some existing => simp [runFresh_definition_seen h, h]

variable {given : ResolvedName}

/-- A definition forgets nothing. -/
theorem find_definition (hfind : state.freshMap.find symbol = some given) :
    ((runFresh (freshDefinition name) state).2).freshMap.find symbol = some given := by
  cases h : state.freshMap.find name.resolvedSymbol with
  | none =>
      have hne : name.resolvedSymbol ≠ symbol := by
        rintro rfl
        rw [h] at hfind
        cases hfind
      simp [runFresh_definition_new h, hne, hfind]
  | some existing => simp [runFresh_definition_seen h, hfind]

theorem find_definition_none :
    ((runFresh (freshDefinition name) state).2).freshMap.find symbol = none ↔
      state.freshMap.find symbol = none ∧ name.resolvedSymbol ≠ symbol := by
  cases h : state.freshMap.find name.resolvedSymbol with
  | none => by_cases hne : name.resolvedSymbol = symbol <;> simp [runFresh_definition_new h, hne]
  | some existing =>
      simp only [runFresh_definition_seen h]
      refine ⟨fun hnone => ⟨hnone, ?_⟩, And.left⟩
      rintro rfl
      rw [h] at hnone
      cases hnone

theorem Issued.definition {base : Int} (hissued : Issued base state) :
    Issued base (runFresh (freshDefinition name) state).2 := by
  cases h : state.freshMap.find name.resolvedSymbol with
  | some existing =>
      rw [runFresh_definition_seen h]
      exact hissued
  | none =>
      rw [runFresh_definition_new h]
      have hstart := hissued.start
      constructor
      · show base ≤ state.freshNext + 1
        omega
      · intro symbol given hfind
        show base ≤ given.resolvedSymbol ∧ given.resolvedSymbol < state.freshNext + 1
        simp only [SortedMap.find_insert] at hfind
        split at hfind
        · cases hfind
          exact ⟨hstart, Int.lt_succ _⟩
        · obtain ⟨hlow, hhigh⟩ := hissued.range symbol given hfind
          exact ⟨hlow, by omega⟩
      · intro first second given other hfirst hsecond heq
        simp only [SortedMap.find_insert] at hfirst hsecond
        -- the symbol given now is above all symbols given before
        split at hfirst <;> split at hsecond
        · next hf hs => exact hf.symm.trans hs
        · cases hfirst
          have hrange := hissued.range second other hsecond
          simp only [] at heq
          omega
        · cases hsecond
          have hrange := hissued.range first given hfirst
          simp only [] at heq
          omega
        · exact hissued.apart first second given other hfirst hsecond heq
      · intro symbol hlow hhigh
        have hcases : symbol < state.freshNext ∨ symbol = state.freshNext := by
          have hhigh' : symbol < state.freshNext + 1 := hhigh
          omega
        rcases hcases with hless | rfl
        · obtain ⟨source, given, hfind, heq⟩ := hissued.full symbol hlow hless
          refine ⟨source, given, ?_, heq⟩
          have hne : name.resolvedSymbol ≠ source := by
            rintro rfl
            rw [h] at hfind
            cases hfind
          simp [hne, hfind]
        · exact ⟨name.resolvedSymbol, ⟨state.freshNext, name.resolvedSpelling⟩, by simp, rfl⟩

variable {uses : List NameUse}

theorem Issued.after {base : Int} (hissued : Issued base state) : Issued base (afterUses uses state) := by
  fun_induction afterUses uses state with
  | case1 state => exact hissued
  | case2 name rest state ih => exact ih hissued.definition
  | case3 name rest state ih => exact ih hissued

theorem find_afterUses (hfind : state.freshMap.find symbol = some given) :
    (afterUses uses state).freshMap.find symbol = some given := by
  fun_induction afterUses uses state with
  | case1 state => exact hfind
  | case2 name rest state ih => exact ih (find_definition hfind)
  | case3 name rest state ih => exact ih hfind

/-- The map knows the defined symbols. -/
theorem find_afterUses_none :
    (afterUses uses state).freshMap.find symbol = none ↔
      state.freshMap.find symbol = none ∧ symbol ∉ definedSymbols uses := by
  fun_induction afterUses uses state with
  | case1 state => simp
  | case2 name rest state ih =>
      rw [ih, find_definition_none, definedSymbols_defined, List.mem_cons, not_or, and_assoc, ne_comm]
  | case3 name rest state ih => rw [ih, definedSymbols_referred]

/-- No reference stands before the binder of its symbol. -/
def BindsFirst (uses : List NameUse) : Prop :=
  ∀ before name rest, uses = before ++ .referred name :: rest → name.resolvedSymbol ∈ definedSymbols rest →
    name.resolvedSymbol ∈ definedSymbols before

/-- **The traversal follows its final map**, from any point on. -/
theorem follows_givenName (hstart : ∀ symbol, state.freshMap.find symbol = none) {before : List NameUse}
    (hbinds : BindsFirst (before ++ uses)) :
    Follows (givenName (afterUses (before ++ uses) state)) uses (afterUses before state) := by
  induction uses generalizing before with
  | nil => trivial
  | cons use rest ih =>
      have hstep : before ++ use :: rest = (before ++ [use]) ++ rest := by simp
      rw [hstep] at hbinds ⊢
      have hrest := ih hbinds
      rw [← hstep] at hbinds hrest ⊢
      have hlast : afterUses (before ++ [use]) state = afterUses [use] (afterUses before state) :=
        afterUses_append ..
      rw [hlast] at hrest
      cases use with
      | defined name =>
          refine ⟨?_, hrest⟩
          have hfinal : (afterUses rest (runFresh (freshDefinition name) (afterUses before state)).2).freshMap.find
              name.resolvedSymbol = some (runFresh (freshDefinition name) (afterUses before state)).1 :=
            find_afterUses find_definition_self
          rw [givenName, afterUses_append, afterUses, hfinal]
          rfl
      | referred name =>
          refine ⟨?_, hrest⟩
          show ((afterUses before state).freshMap.find name.resolvedSymbol).getD name = _
          cases hfind : (afterUses before state).freshMap.find name.resolvedSymbol with
          | some given =>
              have hfinal : (afterUses rest (afterUses before state)).freshMap.find name.resolvedSymbol =
                  some given := find_afterUses hfind
              rw [givenName, afterUses_append, afterUses, hfinal]
          | none =>
              -- not bound before, so not bound later
              have hbefore := (find_afterUses_none.mp hfind).2
              have hrest : name.resolvedSymbol ∉ definedSymbols rest := fun hmem =>
                hbefore (hbinds before name rest rfl hmem)
              have hfinal : (afterUses (before ++ .referred name :: rest) state).freshMap.find
                  name.resolvedSymbol = none := by
                rw [find_afterUses_none]
                exact ⟨hstart _, by simp [hbefore, hrest]⟩
              rw [givenName, hfinal]

end State

end Tala.Frontend
