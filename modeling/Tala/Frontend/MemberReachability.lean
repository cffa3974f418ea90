import Mathlib.Data.Finset.Sort
import Tala.Library.Codec
import Tala.Library.SortedMap
import Tala.Syntax.Parts

/-!
# `Frontend.MemberReachability` — the members of a template that a request needs

Only requested members of a template are specialized, with every sibling that their bodies call by name. The
graph of calls is keyed by symbols; its closure is computed over a worklist, and a verifier recomputes the facts
of a result it is given.

`selectReachableMembersBySymbol_exact` says that the selection is the least set with the requested members that
is closed under calls, and which results with the same roots the verifier accepts.
-/

namespace Tala.Frontend

open Tala Tala.Syntax Tala.Library Tala.Library.Codec

/-! ## Graphs and results -/

/-- One direct call. Repeated calls stay distinct, although they give one edge. -/
structure TemplateMemberCall where
  templateCallOwner : Int
  templateCallTarget : Int
  templateCallSpan : SourceSpan
  deriving DecidableEq, Repr

structure TemplateMemberNode where
  templateMemberIndex : Nat
  templateMemberSymbol : Int
  templateMemberName : Identifier
  templateMemberCallable : Bool
  templateMemberCalls : List TemplateMemberCall

/-- The calls between members, and those that leave the declaration. -/
structure TemplateMemberGraph where
  templateGraphNodes : List TemplateMemberNode
  templateGraphInternalCalls : List TemplateMemberCall
  templateGraphExternalCalls : List TemplateMemberCall

structure TemplateMemberReachabilityStatistics where
  totalTemplateMembers : Nat
  callableTemplateMembers : Nat
  requestedTemplateMemberRoots : Nat
  reachableTemplateMembers : Nat
  observedTemplateMemberCalls : Nat
  internalTemplateMemberCalls : Nat
  externalTemplateMemberCalls : Nat
  uniqueTemplateMemberEdges : Nat
  deriving DecidableEq, Repr

structure TemplateMemberReachability where
  memberReachabilityRoots : List Int
  memberReachabilitySymbols : List Int
  memberReachabilityMembers : List (Declaration ResolvedName)
  memberReachabilityEdges : List (Int × Int)
  memberReachabilityStatistics : TemplateMemberReachabilityStatistics

inductive TemplateMemberReachabilityError
  | invalidTemplateMemberSymbol (name : Identifier) (symbol : Int)
  | duplicateTemplateMemberSymbol (symbol : Int) (names : List Identifier)
  | missingTemplateMemberSymbol (symbol : Int)
  deriving DecidableEq, Repr

inductive TemplateMemberReachabilityIssue
  | reachabilityRootIsNotMember (symbol : Int)
  | reachabilitySelectionIsNotMember (symbol : Int)
  | duplicateReachabilityRoot (symbol : Int)
  | duplicateReachabilitySelection (symbol : Int)
  | reachabilityRootNotSelected (symbol : Int)
  | reachabilityDependencyNotSelected (owner target : Int)
  | unexpectedReachabilityEdge (owner target : Int)
  | missingReachabilityEdge (owner target : Int)
  | reachabilityMembersDiffer (expected actual : List Int)
  | incorrectReachabilityStatistics (expected actual : TemplateMemberReachabilityStatistics)
  deriving DecidableEq, Repr

/-! ## Lists -/

section Lists

variable {α : Type} [DecidableEq α]

/-- The values in order of their first occurrence, without those that were seen. -/
def uniqueFrom (seen : Finset α) : List α → List α
  | [] => []
  | value :: remaining =>
      if value ∈ seen then uniqueFrom seen remaining else value :: uniqueFrom (insert value seen) remaining

def unique (values : List α) : List α := uniqueFrom ∅ values

/-- The values that occur again after they were seen. -/
def repeatedFrom (seen repeated : Finset α) : List α → Finset α
  | [] => repeated
  | value :: remaining =>
      if value ∈ seen then repeatedFrom seen (insert value repeated) remaining
      else repeatedFrom (insert value seen) repeated remaining

end Lists

def duplicates (values : List Int) : List Int := (repeatedFrom ∅ ∅ values).sort

/-! ## Calls -/

def directCall (owner : Int) (spanValue : SourceSpan) : Expression ResolvedName → List TemplateMemberCall
  | .nameExpression _ target _ => [⟨owner, target.resolvedSymbol, spanValue⟩]
  | _ => []

mutual

def statementCalls (owner : Int) : Statement ResolvedName → List TemplateMemberCall
  | .bindingStatement _ _ _ _ value => expressionCalls owner value
  | .assignmentStatement _ _ _ value => expressionCalls owner value
  | .returnStatement _ value => optionalCalls owner value
  | .ifStatement _ condition whenTrue whenFalse =>
      expressionCalls owner condition ++ blockCalls owner whenTrue ++ optionalBlockCalls owner whenFalse
  | .whileStatement _ condition body => expressionCalls owner condition ++ blockCalls owner body
  | .doWhileStatement _ body condition => blockCalls owner body ++ expressionCalls owner condition
  | .forStatement _ initializer condition updates body =>
      initializerCalls owner initializer ++ optionalCalls owner condition ++ blockCalls owner updates ++
        blockCalls owner body
  | .forEachStatement _ _ _ _ source body => expressionCalls owner source ++ blockCalls owner body
  | .incrementStatement _ _ _ => []
  | .compoundAssignmentStatement _ _ _ _ value => expressionCalls owner value
  | .discardStatement _ value => expressionCalls owner value
  | .breakStatement _ value => optionalCalls owner value
  | .continueStatement _ => []
  | .guardStatement _ condition block => expressionCalls owner condition ++ blockCalls owner block
  | .blockStatement _ block => blockCalls owner block
  | .expressionStatement _ value _ => expressionCalls owner value

def expressionCalls (owner : Int) : Expression ResolvedName → List TemplateMemberCall
  | .nameExpression _ _ _ => []
  | .literalExpression _ _ _ => []
  | .memberAccessExpression _ receiver _ _ => expressionCalls owner receiver
  | .methodReferenceExpression _ receiver _ _ => expressionCalls owner receiver
  | .callExpression spanValue callee arguments _ =>
      directCall owner spanValue callee ++ expressionCalls owner callee ++ operandCalls owner arguments
  | .unaryExpression _ _ value _ => expressionCalls owner value
  | .binaryExpression _ _ left right _ => expressionCalls owner left ++ expressionCalls owner right
  | .isPatternExpression _ subject _ _ => expressionCalls owner subject
  -- Reachability does not follow paths: a call on either side may be executed.
  | .conditionalExpression _ condition first second _ =>
      expressionCalls owner condition ++ (expressionCalls owner first ++ expressionCalls owner second)
  | .coalesceExpression _ left fallback _ => expressionCalls owner left ++ expressionCalls owner fallback
  | .assignmentExpression _ _ _ value _ => expressionCalls owner value
  | .incrementExpression _ _ _ _ => []
  | .loopExpression _ loop _ => statementCalls owner loop
  | .blockExpression _ block _ => blockCalls owner block
  | .matchExpression _ subjects arms _ => operandCalls owner subjects ++ armCalls owner arms
  | .callableExpression _ _ captures _ body _ => captureCalls owner captures ++ callableBodyCalls owner body

def blockCalls (owner : Int) : List (Statement ResolvedName) → List TemplateMemberCall
  | [] => []
  | statement :: rest => statementCalls owner statement ++ blockCalls owner rest

def optionalBlockCalls (owner : Int) : Option (List (Statement ResolvedName)) → List TemplateMemberCall
  | none => []
  | some block => blockCalls owner block

def initializerCalls (owner : Int) : Option (Statement ResolvedName) → List TemplateMemberCall
  | none => []
  | some statement => statementCalls owner statement

def optionalCalls (owner : Int) : Option (Expression ResolvedName) → List TemplateMemberCall
  | none => []
  | some value => expressionCalls owner value

def operandCalls (owner : Int) : List (Expression ResolvedName) → List TemplateMemberCall
  | [] => []
  | operand :: rest => expressionCalls owner operand ++ operandCalls owner rest

/-- The calls in the guard and the body of each arm. -/
def armCalls (owner : Int) : List (MatchArm ResolvedName) → List TemplateMemberCall
  | [] => []
  | .matchArm _ guard body :: rest => optionalCalls owner guard ++ expressionCalls owner body ++ armCalls owner rest

def captureCalls (owner : Int) : List (Capture ResolvedName) → List TemplateMemberCall
  | [] => []
  | .capture _ _ _ _ initializer :: rest => optionalCalls owner initializer ++ captureCalls owner rest

def callableBodyCalls (owner : Int) : CallableBody ResolvedName → List TemplateMemberCall
  | .callableExpressionBody value => expressionCalls owner value
  | .callableBlockBody block => blockCalls owner block

end

/-- The calls of a member. Nested types own their members: their bodies do not pull siblings in. -/
def memberCalls (owner : Int) : Declaration ResolvedName → List TemplateMemberCall
  | .functionDeclaration _ _ _ _ _ body _ _ => blockCalls owner body
  | .typeDeclaration _ _ _ _ => []
  | .templateTypeDeclaration _ _ _ _ _ => []
  | .enumDeclaration _ _ _ _ => []

/-! ## Graph -/

def isFunction {name : Type} : Declaration name → Bool
  | .functionDeclaration _ _ _ _ _ _ _ _ => true
  | _ => false

def declarationSymbol (declaration : Declaration ResolvedName) : Int := (declarationName declaration).resolvedSymbol

def memberNode (index : Nat) (member : Declaration ResolvedName) : TemplateMemberNode where
  templateMemberIndex := index
  templateMemberSymbol := declarationSymbol member
  templateMemberName := (declarationName member).resolvedSpelling
  templateMemberCallable := isFunction member
  templateMemberCalls := memberCalls (declarationSymbol member) member

def callEdge (call : TemplateMemberCall) : Int × Int := (call.templateCallOwner, call.templateCallTarget)

/-- The nodes in the order of the source. -/
def memberNodes (members : List (Declaration ResolvedName)) : List TemplateMemberNode :=
  members.mapIdx memberNode

def buildTemplateMemberGraph (members : List (Declaration ResolvedName)) :
    Except (List TemplateMemberReachabilityError) TemplateMemberGraph :=
  let nodes := memberNodes members
  let memberSymbols := nodes.map (·.templateMemberSymbol)
  let calls := nodes.flatMap (·.templateMemberCalls)
  let invalid := (nodes.filter (·.templateMemberSymbol ≤ 0)).map fun node =>
    .invalidTemplateMemberSymbol node.templateMemberName node.templateMemberSymbol
  let duplicated := (duplicates memberSymbols).map fun symbol =>
    .duplicateTemplateMemberSymbol symbol
      ((nodes.filter (·.templateMemberSymbol = symbol)).map (·.templateMemberName))
  match invalid ++ duplicated with
  | [] => .ok {
      templateGraphNodes := nodes
      templateGraphInternalCalls := calls.filter (·.templateCallTarget ∈ memberSymbols)
      templateGraphExternalCalls := calls.filter (·.templateCallTarget ∉ memberSymbols) }
  | problems => .error problems

/-! ## Closure -/

/-- One more call of an owner, at the end of its targets. -/
def insertCall (table : SortedMap Int (List Int)) (call : TemplateMemberCall) : SortedMap Int (List Int) :=
  table.insert call.templateCallOwner
    (match table.find call.templateCallOwner with
    | none => [call.templateCallTarget]
    | some old => unique (old ++ [call.templateCallTarget]))

def adjacencyTable (calls : List TemplateMemberCall) : SortedMap Int (List Int) :=
  calls.foldl insertCall SortedMap.empty

/-- The symbols of the table that are still to be visited. -/
def unvisited (adjacency : SortedMap Int (List Int)) (visited : Finset Int) : Finset Int :=
  adjacency.keys.toFinset \ visited

theorem unvisited_insert_subset (adjacency : SortedMap Int (List Int)) (visited : Finset Int) (symbol : Int) :
    unvisited adjacency (insert symbol visited) ⊆ unvisited adjacency visited :=
  Finset.sdiff_subset_sdiff (Finset.Subset.refl _) (Finset.subset_insert _ _)

variable {symbol : Int}

/-- A symbol with targets of its own is no longer to be visited once it was. -/
theorem card_unvisited_insert {adjacency : SortedMap Int (List Int)} {visited : Finset Int}
    (hkey : (adjacency.find symbol).isSome) (hfresh : symbol ∉ visited) :
    (unvisited adjacency (insert symbol visited)).card < (unvisited adjacency visited).card := by
  refine Finset.card_lt_card ((Finset.ssubset_iff_of_subset (unvisited_insert_subset ..)).mpr ⟨symbol, ?_, ?_⟩)
  · exact Finset.mem_sdiff.mpr ⟨List.mem_toFinset.mpr (SortedMap.mem_keys.mpr hkey), hfresh⟩
  · intro hmem
    exact (Finset.mem_sdiff.mp hmem).2 (Finset.mem_insert_self _ _)

def closeReachability (adjacency : SortedMap Int (List Int)) (visited : Finset Int) : List Int → Finset Int
  | [] => visited
  | symbol :: pending =>
      if symbol ∈ visited then closeReachability adjacency visited pending
      else closeReachability adjacency (insert symbol visited) (pending ++ (adjacency.find symbol).getD [])
termination_by pending => ((unvisited adjacency visited).card, pending.length)
decreasing_by
  · exact Prod.Lex.right _ (Nat.lt_succ_self _)
  · rename_i hfresh
    cases hfind : adjacency.find symbol with
    | none =>
        have hless := Finset.card_le_card (unvisited_insert_subset adjacency visited symbol)
        rcases Nat.lt_or_eq_of_le hless with hless | heq
        · exact Prod.Lex.left _ _ hless
        · rw [heq]
          exact Prod.Lex.right _ (by simp)
    | some targets => exact Prod.Lex.left _ _ (card_unvisited_insert (by rw [hfind]; rfl) hfresh)

/-! ## Selection -/

def selectFromGraph (roots : List Int) (members : List (Declaration ResolvedName)) (graph : TemplateMemberGraph) :
    TemplateMemberReachability :=
  let nodes := graph.templateGraphNodes
  let sourceOrder := nodes.map (·.templateMemberSymbol)
  let orderedRoots := sourceOrder.filter (· ∈ roots)
  let adjacency := adjacencyTable graph.templateGraphInternalCalls
  let selectedSet := closeReachability adjacency ∅ orderedRoots
  let selectedSymbols := sourceOrder.filter (· ∈ selectedSet)
  let selectedEdges :=
    unique ((graph.templateGraphInternalCalls.filter (·.templateCallOwner ∈ selectedSet)).map callEdge)
  { memberReachabilityRoots := orderedRoots
    memberReachabilitySymbols := selectedSymbols
    memberReachabilityMembers := members.filter (declarationSymbol · ∈ selectedSet)
    memberReachabilityEdges := selectedEdges
    memberReachabilityStatistics := {
      totalTemplateMembers := nodes.length
      callableTemplateMembers := (nodes.filter (·.templateMemberCallable)).length
      requestedTemplateMemberRoots := orderedRoots.length
      reachableTemplateMembers := selectedSymbols.length
      observedTemplateMemberCalls :=
        (graph.templateGraphInternalCalls ++ graph.templateGraphExternalCalls).length
      internalTemplateMemberCalls := graph.templateGraphInternalCalls.length
      externalTemplateMemberCalls := graph.templateGraphExternalCalls.length
      uniqueTemplateMemberEdges := (unique (graph.templateGraphInternalCalls.map callEdge)).length } }

/-- The requested members, with every sibling their calls lead to. -/
def selectReachableMembersBySymbol (requested : List Int) (members : List (Declaration ResolvedName)) :
    Except (List TemplateMemberReachabilityError) TemplateMemberReachability := do
  let graph ← buildTemplateMemberGraph members
  let roots := unique requested
  let available := graph.templateGraphNodes.map (·.templateMemberSymbol)
  match roots.filter (· ∉ available) with
  | [] => .ok (selectFromGraph roots members graph)
  | missing => .error (missing.map .missingTemplateMemberSymbol)

/-- What is wrong with a result, in the order in which it is looked for. -/
def reachabilityIssues (available : List Int) (expected reachability : TemplateMemberReachability) :
    List TemplateMemberReachabilityIssue :=
  let roots := reachability.memberReachabilityRoots
  let selected := reachability.memberReachabilitySymbols
  let actualMembers := reachability.memberReachabilityMembers.map declarationSymbol
  let expectedEdges := expected.memberReachabilityEdges
  let actualEdges := reachability.memberReachabilityEdges
  let rootProblems :=
    (roots.filter (· ∉ available)).map .reachabilityRootIsNotMember ++
      (duplicates roots).map .duplicateReachabilityRoot ++
      (roots.filter (· ∉ selected)).map .reachabilityRootNotSelected
  let selectionProblems :=
    (selected.filter (· ∉ available)).map .reachabilitySelectionIsNotMember ++
      (duplicates selected).map .duplicateReachabilitySelection
  let closureProblems :=
    (expectedEdges.filter fun edge => edge.1 ∈ selected ∧ edge.2 ∉ selected).map fun edge =>
      .reachabilityDependencyNotSelected edge.1 edge.2
  let edgeProblems :=
    ((actualEdges.filter (· ∉ expectedEdges)).map fun edge => .unexpectedReachabilityEdge edge.1 edge.2) ++
      (expectedEdges.filter (· ∉ actualEdges)).map fun edge => .missingReachabilityEdge edge.1 edge.2
  let memberProblems :=
    if selected ≠ actualMembers then [.reachabilityMembersDiffer selected actualMembers] else []
  let statisticProblems :=
    if expected.memberReachabilityStatistics ≠ reachability.memberReachabilityStatistics then
      [.incorrectReachabilityStatistics expected.memberReachabilityStatistics
        reachability.memberReachabilityStatistics]
    else []
  rootProblems ++ selectionProblems ++ closureProblems ++ edgeProblems ++ memberProblems ++ statisticProblems

/-- Recompute the facts of the graph and compare them with a result. -/
def verifyTemplateMemberReachability (members : List (Declaration ResolvedName))
    (reachability : TemplateMemberReachability) :
    Except (List TemplateMemberReachabilityError) (List TemplateMemberReachabilityIssue) := do
  let graph ← buildTemplateMemberGraph members
  let expected := selectFromGraph reachability.memberReachabilityRoots members graph
  pure (reachabilityIssues (graph.templateGraphNodes.map (·.templateMemberSymbol)) expected reachability)

/-! ## Facts about lists -/

section ListFacts

variable {α : Type} [DecidableEq α] {values : List α} {value : α}

theorem mem_uniqueFrom (seen : Finset α) : value ∈ uniqueFrom seen values ↔ value ∈ values ∧ value ∉ seen := by
  induction values generalizing seen with
  | nil => simp [uniqueFrom]
  | cons first remaining ih =>
      by_cases hseen : first ∈ seen
      · rw [uniqueFrom, if_pos hseen, ih]
        grind
      · rw [uniqueFrom, if_neg hseen, List.mem_cons, ih]
        grind

@[simp] theorem mem_unique : value ∈ unique values ↔ value ∈ values := by simp [unique, mem_uniqueFrom]

/-- Something is repeated exactly when the values are not distinct or were seen before. -/
theorem repeatedFrom_eq_empty (seen repeated : Finset α) :
    repeatedFrom seen repeated values = ∅ ↔ repeated = ∅ ∧ values.Nodup ∧ ∀ value ∈ values, value ∉ seen := by
  induction values generalizing seen repeated with
  | nil => simp [repeatedFrom]
  | cons first remaining ih =>
      by_cases hseen : first ∈ seen
      · rw [repeatedFrom, if_pos hseen, ih]
        simp [hseen]
      · rw [repeatedFrom, if_neg hseen, ih, List.nodup_cons]
        grind

theorem duplicates_eq_nil {values : List Int} : duplicates values = [] ↔ values.Nodup := by
  have hsort : ∀ set : Finset Int, set.sort = [] ↔ set = ∅ := fun set => by
    rw [← List.length_eq_zero_iff, Finset.length_sort, Finset.card_eq_zero]
  simp [duplicates, hsort, repeatedFrom_eq_empty]

end ListFacts

/-! ## Facts about calls -/

/-- The calls found in a part of a body. -/
def partCalls (owner : Int) : CodePart ResolvedName → List TemplateMemberCall
  | .statement single => statementCalls owner single
  | .expression value => expressionCalls owner value
  | .arm (.matchArm _ guard body) => optionalCalls owner guard ++ expressionCalls owner body
  | .capture (.capture _ _ _ _ initializer) => optionalCalls owner initializer

/-- The call that a part is itself. -/
def ownCall (owner : Int) : CodePart ResolvedName → List TemplateMemberCall
  | .expression (.callExpression spanValue callee _ _) => directCall owner spanValue callee
  | _ => []

section Calls

variable {owner : Int} {call : TemplateMemberCall}

theorem mem_blockCalls {block : List (Statement ResolvedName)} :
    call ∈ blockCalls owner block ↔ ∃ part ∈ block.map CodePart.statement, call ∈ partCalls owner part := by
  induction block with
  | nil => simp [blockCalls]
  | cons first rest ih => simp [blockCalls, ih, partCalls]

theorem mem_operandCalls {operands : List (Expression ResolvedName)} :
    call ∈ operandCalls owner operands ↔ ∃ part ∈ operands.map CodePart.expression, call ∈ partCalls owner part := by
  induction operands with
  | nil => simp [operandCalls]
  | cons first rest ih => simp [operandCalls, ih, partCalls]

theorem mem_armCalls {arms : List (MatchArm ResolvedName)} :
    call ∈ armCalls owner arms ↔ ∃ part ∈ arms.map CodePart.arm, call ∈ partCalls owner part := by
  induction arms with
  | nil => simp [armCalls]
  | cons first rest ih =>
      cases first
      simp [armCalls, ih, partCalls, or_assoc]

theorem mem_captureCalls {captures : List (Capture ResolvedName)} :
    call ∈ captureCalls owner captures ↔ ∃ part ∈ captures.map CodePart.capture, call ∈ partCalls owner part := by
  induction captures with
  | nil => simp [captureCalls]
  | cons first rest ih =>
      cases first
      simp [captureCalls, ih, partCalls]

theorem mem_optionalCalls {value : Option (Expression ResolvedName)} :
    call ∈ optionalCalls owner value ↔
      ∃ part ∈ value.toList.map CodePart.expression, call ∈ partCalls owner part := by
  cases value <;> simp [optionalCalls, partCalls]

theorem mem_initializerCalls {initializer : Option (Statement ResolvedName)} :
    call ∈ initializerCalls owner initializer ↔
      ∃ part ∈ initializer.toList.map CodePart.statement, call ∈ partCalls owner part := by
  cases initializer <;> simp [initializerCalls, partCalls]

theorem mem_optionalBlockCalls {block : Option (List (Statement ResolvedName))} :
    call ∈ optionalBlockCalls owner block ↔
      ∃ part ∈ (block.getD []).map CodePart.statement, call ∈ partCalls owner part := by
  cases block with
  | none => simp [optionalBlockCalls]
  | some block => exact mem_blockCalls

theorem mem_callableBodyCalls {body : CallableBody ResolvedName} :
    call ∈ callableBodyCalls owner body ↔ ∃ part ∈ callableBodyParts body, call ∈ partCalls owner part := by
  cases body with
  | callableExpressionBody value => simp [callableBodyCalls, callableBodyParts, partCalls]
  | callableBlockBody block => exact mem_blockCalls

/-- The calls of a part are its own and those of its children. -/
theorem mem_partCalls_step (part : CodePart ResolvedName) (call : TemplateMemberCall) :
    call ∈ partCalls owner part ↔
      call ∈ ownCall owner part ∨ ∃ child ∈ part.children, call ∈ partCalls owner child := by
  cases part with
  | statement single =>
      cases single <;>
        simp [partCalls, ownCall, CodePart.children, statementCalls, mem_blockCalls, mem_optionalCalls,
          mem_initializerCalls, mem_optionalBlockCalls, or_and_right, exists_or]
  | expression value =>
      cases value <;>
        simp [partCalls, ownCall, CodePart.children, expressionCalls, mem_blockCalls, mem_operandCalls, mem_armCalls,
          mem_captureCalls, mem_callableBodyCalls, or_and_right, exists_or]
  | arm alternative =>
      cases alternative
      simp [partCalls, ownCall, CodePart.children, mem_optionalCalls, or_and_right, exists_or]
  | capture captured =>
      cases captured
      simp [partCalls, ownCall, CodePart.children, mem_optionalCalls]

variable {part : CodePart ResolvedName}

/-- The calls found are those of the call expressions contained. -/
theorem mem_partCalls :
    call ∈ partCalls owner part ↔ ∃ inner, part.Contains inner ∧ call ∈ ownCall owner inner :=
  mem_traversal_iff mem_partCalls_step

end Calls

/-! ## Facts about the graph -/

/-- The body of a member; only functions have one. -/
def memberBody : Declaration ResolvedName → List (Statement ResolvedName)
  | .functionDeclaration _ _ _ _ _ body _ _ => body
  | _ => []

/-- A call expression of a symbol by its name. -/
def IsCallOf (target : Int) (part : CodePart ResolvedName) : Prop :=
  ∃ spanValue nameSpan callee calleeType arguments annotated,
    part = .expression (.callExpression spanValue (.nameExpression nameSpan callee calleeType) arguments annotated) ∧
      callee.resolvedSymbol = target

/-- Somewhere in the body of a member, at any depth, a symbol is called by its name. -/
def Calls (member : Declaration ResolvedName) (target : Int) : Prop :=
  ∃ statement ∈ memberBody member, ∃ inner, (CodePart.statement statement).Contains inner ∧ IsCallOf target inner

section Graph

variable {members : List (Declaration ResolvedName)} {graph : TemplateMemberGraph} {owner target : Int}
  {call : TemplateMemberCall} {member : Declaration ResolvedName} {part : CodePart ResolvedName}

theorem owner_of_mem_ownCall (h : call ∈ ownCall owner part) :
    call.templateCallOwner = owner ∧ IsCallOf call.templateCallTarget part := by
  cases part with
  | expression value =>
      cases value with
      | callExpression spanValue callee arguments annotated =>
          cases callee with
          | nameExpression nameSpan target calleeType =>
              obtain rfl := List.mem_singleton.mp h
              exact ⟨rfl, spanValue, nameSpan, target, calleeType, arguments, annotated, rfl, rfl⟩
          | _ => cases h
      | _ => cases h
  | _ => cases h

theorem exists_ownCall (owner : Int) (h : IsCallOf target part) :
    ∃ call ∈ ownCall owner part, call.templateCallTarget = target := by
  obtain ⟨spanValue, nameSpan, callee, calleeType, arguments, annotated, rfl, rfl⟩ := h
  exact ⟨⟨owner, callee.resolvedSymbol, spanValue⟩, List.mem_singleton.mpr rfl, rfl⟩

theorem mem_memberCalls :
    call ∈ memberCalls owner member ↔ ∃ statement ∈ memberBody member, call ∈ statementCalls owner statement := by
  cases member with
  | functionDeclaration span target annotated returnSyntax parameters body isStatic access =>
      simp [memberCalls, memberBody, mem_blockCalls, partCalls]
  | _ => simp [memberCalls, memberBody]

theorem owner_of_mem_memberCalls (h : call ∈ memberCalls owner member) :
    call.templateCallOwner = owner ∧ Calls member call.templateCallTarget := by
  obtain ⟨statement, hstatement, hcall⟩ := mem_memberCalls.mp h
  have hpart : call ∈ partCalls owner (.statement statement) := hcall
  obtain ⟨inner, hcontains, hown⟩ := mem_partCalls.mp hpart
  obtain ⟨howner, htarget⟩ := owner_of_mem_ownCall hown
  exact ⟨howner, statement, hstatement, inner, hcontains, htarget⟩

theorem exists_memberCall (owner : Int) (h : Calls member target) :
    ∃ call ∈ memberCalls owner member, call.templateCallTarget = target := by
  obtain ⟨statement, hstatement, inner, hcontains, htarget⟩ := h
  obtain ⟨call, hown, htarget⟩ := exists_ownCall owner htarget
  exact ⟨call, mem_memberCalls.mpr ⟨statement, hstatement, mem_partCalls.mpr ⟨inner, hcontains, hown⟩⟩, htarget⟩

theorem map_memberNodes {β : Type} (read : TemplateMemberNode → β) (field : Declaration ResolvedName → β)
    (h : ∀ index member, read (memberNode index member) = field member) :
    (memberNodes members).map read = members.map field :=
  List.ext_getElem (by simp [memberNodes]) (by simp [memberNodes, h])

@[simp] theorem map_symbol_memberNodes :
    (memberNodes members).map (·.templateMemberSymbol) = members.map declarationSymbol :=
  map_memberNodes _ _ fun _ _ => rfl

theorem flatMap_calls_memberNodes : (memberNodes members).flatMap (·.templateMemberCalls) =
    members.flatMap fun member => memberCalls (declarationSymbol member) member := by
  rw [List.flatMap_def, List.flatMap_def, map_memberNodes _ _ fun _ _ => rfl]
  rfl

/-- Members with distinct positive symbols have a graph: their nodes, with the calls of their bodies. -/
structure GraphOf (members : List (Declaration ResolvedName)) (graph : TemplateMemberGraph) : Prop where
  nodes : graph.templateGraphNodes = memberNodes members
  internal : ∀ call, call ∈ graph.templateGraphInternalCalls ↔
    call.templateCallTarget ∈ members.map declarationSymbol ∧
      ∃ member ∈ members, call ∈ memberCalls (declarationSymbol member) member

theorem buildTemplateMemberGraph_ok (hpositive : ∀ member ∈ members, 0 < declarationSymbol member)
    (hdistinct : (members.map declarationSymbol).Nodup) :
    ∃ graph, buildTemplateMemberGraph members = .ok graph ∧ GraphOf members graph := by
  have hinvalid : (memberNodes members).filter (·.templateMemberSymbol ≤ 0) = [] := by
    refine List.filter_eq_nil_iff.mpr fun node hnode => ?_
    have hmem := List.mem_map_of_mem (f := (·.templateMemberSymbol)) hnode
    rw [map_symbol_memberNodes] at hmem
    obtain ⟨member, hmember, heq⟩ := List.mem_map.mp hmem
    have hless := hpositive member hmember
    have hnot : ¬node.templateMemberSymbol ≤ 0 := by omega
    simpa using hnot
  have hduplicates : duplicates (members.map declarationSymbol) = [] := duplicates_eq_nil.mpr hdistinct
  let calls := (memberNodes members).flatMap (·.templateMemberCalls)
  refine ⟨⟨memberNodes members, calls.filter (·.templateCallTarget ∈ members.map declarationSymbol),
    calls.filter (·.templateCallTarget ∉ members.map declarationSymbol)⟩, ?_, rfl, fun call => ?_⟩
  · unfold buildTemplateMemberGraph
    simp only [map_symbol_memberNodes, hinvalid, hduplicates, List.map_nil, List.append_nil]
    rfl
  · simp only [calls, List.mem_filter, flatMap_calls_memberNodes, List.mem_flatMap, decide_eq_true_eq]
    exact and_comm

end Graph

/-! ## Facts about the closure -/

section Closure

/-- The targets of a symbol in a table. -/
def targetsOf (adjacency : SortedMap Int (List Int)) (symbol : Int) : List Int := (adjacency.find symbol).getD []

variable {owner target : Int}

theorem mem_targetsOf_insertCall {table : SortedMap Int (List Int)} {call : TemplateMemberCall} :
    target ∈ targetsOf (insertCall table call) owner ↔
      target ∈ targetsOf table owner ∨ callEdge call = (owner, target) := by
  by_cases howner : owner = call.templateCallOwner
  · subst howner
    cases hfind : table.find call.templateCallOwner <;>
      simp [targetsOf, insertCall, callEdge, hfind, eq_comm]
  · have hne : call.templateCallOwner ≠ owner := fun h => howner h.symm
    simp [targetsOf, insertCall, callEdge, hne]

theorem mem_targetsOf_adjacencyTable {calls : List TemplateMemberCall} :
    target ∈ targetsOf (adjacencyTable calls) owner ↔ ∃ call ∈ calls, callEdge call = (owner, target) := by
  have hfold : ∀ (rest : List TemplateMemberCall) (table : SortedMap Int (List Int)),
      target ∈ targetsOf (rest.foldl insertCall table) owner ↔
        target ∈ targetsOf table owner ∨ ∃ call ∈ rest, callEdge call = (owner, target) := by
    intro rest
    induction rest with
    | nil => simp
    | cons call rest ih =>
        intro table
        rw [List.foldl_cons, ih, mem_targetsOf_insertCall]
        simp [or_assoc]
  rw [adjacencyTable, hfold]
  simp [targetsOf]

variable {adjacency : SortedMap Int (List Int)} {visited : Finset Int} {pending : List Int}

/-- What was visited and what is pending is reached. -/
theorem subset_closeReachability (h : symbol ∈ visited ∨ symbol ∈ pending) :
    symbol ∈ closeReachability adjacency visited pending := by
  fun_induction closeReachability adjacency visited pending with
  | case1 visited => simpa using h
  | case2 visited first pending hseen ih =>
      refine ih ?_
      rcases h with h | h
      · exact .inl h
      · rcases List.mem_cons.mp h with rfl | h
        · exact .inl hseen
        · exact .inr h
  | case3 visited first pending hfresh ih =>
      refine ih ?_
      rcases h with h | h
      · exact .inl (Finset.mem_insert_of_mem h)
      · rcases List.mem_cons.mp h with rfl | h
        · exact .inl (Finset.mem_insert_self _ _)
        · exact .inr (List.mem_append_left _ h)

/-- When the targets of what was visited are visited or pending, the result is closed. -/
theorem closeReachability_closed
    (h : ∀ symbol ∈ visited, ∀ target ∈ targetsOf adjacency symbol, target ∈ visited ∨ target ∈ pending)
    (hsymbol : symbol ∈ closeReachability adjacency visited pending)
    (htarget : target ∈ targetsOf adjacency symbol) :
    target ∈ closeReachability adjacency visited pending := by
  fun_induction closeReachability adjacency visited pending with
  | case1 visited => simpa using h symbol hsymbol target htarget
  | case2 visited first pending hseen ih =>
      refine ih (fun owner howner other hother => ?_) hsymbol
      rcases h owner howner other hother with hleft | hright
      · exact .inl hleft
      · rcases List.mem_cons.mp hright with rfl | hright
        · exact .inl hseen
        · exact .inr hright
  | case3 visited first pending hfresh ih =>
      refine ih (fun owner howner other hother => ?_) hsymbol
      rcases Finset.mem_insert.mp howner with rfl | howner
      · exact .inr (List.mem_append_right _ hother)
      · rcases h owner howner other hother with hleft | hright
        · exact .inl (Finset.mem_insert_of_mem hleft)
        · rcases List.mem_cons.mp hright with rfl | hright
          · exact .inl (Finset.mem_insert_self _ _)
          · exact .inr (List.mem_append_left _ hright)

/-- Nothing is reached outside a closed set with what was visited and what is pending. -/
theorem closeReachability_least {set : Set Int} (hvisited : ∀ symbol ∈ visited, symbol ∈ set)
    (hpending : ∀ symbol ∈ pending, symbol ∈ set)
    (hclosed : ∀ symbol ∈ set, ∀ target ∈ targetsOf adjacency symbol, target ∈ set) :
    ∀ symbol ∈ closeReachability adjacency visited pending, symbol ∈ set := by
  fun_induction closeReachability adjacency visited pending with
  | case1 visited => exact hvisited
  | case2 visited first pending hseen ih =>
      exact ih hvisited fun symbol hmem => hpending symbol (List.mem_cons_of_mem _ hmem)
  | case3 visited first pending hfresh ih =>
      have hfirst : first ∈ set := hpending first List.mem_cons_self
      refine ih (fun symbol hmem => ?_) fun symbol hmem => ?_
      · rcases Finset.mem_insert.mp hmem with rfl | hmem
        · exact hfirst
        · exact hvisited symbol hmem
      · rcases List.mem_append.mp hmem with hmem | hmem
        · exact hpending symbol (List.mem_cons_of_mem _ hmem)
        · exact hclosed first hfirst symbol hmem

end Closure

/-! ## The selection -/

/-- One member calls another. -/
def CallsSibling (members : List (Declaration ResolvedName)) (owner target : Int) : Prop :=
  target ∈ members.map declarationSymbol ∧ ∃ member ∈ members, declarationSymbol member = owner ∧ Calls member target

/-- A set of symbols with every sibling that its members call. -/
def ClosedUnderCalls (members : List (Declaration ResolvedName)) (set : Set Int) : Prop :=
  ∀ owner target, CallsSibling members owner target → owner ∈ set → target ∈ set

/-- The selection of a request: the least set with the requested members that is closed under calls, with the
declarations in the order of the source and the calls of the selected members. -/
structure ExactSelection (requested : List Int) (members : List (Declaration ResolvedName))
    (result : TemplateMemberReachability) : Prop where
  roots : ∀ symbol ∈ requested, symbol ∈ result.memberReachabilitySymbols
  closed : ClosedUnderCalls members fun symbol => symbol ∈ result.memberReachabilitySymbols
  least : ∀ set : Set Int, (∀ symbol ∈ requested, symbol ∈ set) → ClosedUnderCalls members set →
    ∀ symbol ∈ result.memberReachabilitySymbols, symbol ∈ set
  declarations :
    result.memberReachabilityMembers = members.filter (declarationSymbol · ∈ result.memberReachabilitySymbols)
  symbols : result.memberReachabilitySymbols = result.memberReachabilityMembers.map declarationSymbol
  edges : ∀ owner target, (owner, target) ∈ result.memberReachabilityEdges ↔
    owner ∈ result.memberReachabilitySymbols ∧ CallsSibling members owner target

/-- A result that the verifier accepts in place of the expected one: it may select more members. -/
structure Consistent (members : List (Declaration ResolvedName)) (expected other : TemplateMemberReachability) :
    Prop where
  complete : ∀ symbol ∈ expected.memberReachabilitySymbols, symbol ∈ other.memberReachabilitySymbols
  available : ∀ symbol ∈ other.memberReachabilitySymbols, symbol ∈ members.map declarationSymbol
  distinct : other.memberReachabilitySymbols.Nodup
  declarations : other.memberReachabilitySymbols = other.memberReachabilityMembers.map declarationSymbol
  edges : ∀ edge, edge ∈ other.memberReachabilityEdges ↔ edge ∈ expected.memberReachabilityEdges
  statistics : expected.memberReachabilityStatistics = other.memberReachabilityStatistics

section Selection

variable {members : List (Declaration ResolvedName)} {graph : TemplateMemberGraph} {roots requested : List Int}

theorem GraphOf.exists_internal_iff (h : GraphOf members graph) {owner target : Int} :
    (∃ call ∈ graph.templateGraphInternalCalls, callEdge call = (owner, target)) ↔
      CallsSibling members owner target := by
  constructor
  · rintro ⟨call, hcall, hedge⟩
    obtain ⟨htarget, member, hmember, hfound⟩ := (h.internal call).mp hcall
    obtain ⟨howner, hcalls⟩ := owner_of_mem_memberCalls hfound
    obtain ⟨rfl, rfl⟩ := Prod.mk.inj hedge
    exact ⟨htarget, member, hmember, howner.symm, hcalls⟩
  · rintro ⟨htarget, member, hmember, rfl, hcalls⟩
    obtain ⟨call, hfound, rfl⟩ := exists_memberCall (declarationSymbol member) hcalls
    obtain ⟨howner, -⟩ := owner_of_mem_memberCalls hfound
    exact ⟨call, (h.internal call).mpr ⟨htarget, member, hmember, hfound⟩, Prod.ext howner rfl⟩

theorem GraphOf.mem_targetsOf (h : GraphOf members graph) {owner target : Int} :
    target ∈ targetsOf (adjacencyTable graph.templateGraphInternalCalls) owner ↔ CallsSibling members owner target :=
  mem_targetsOf_adjacencyTable.trans h.exists_internal_iff

/-- The closure of the roots that are members. -/
def closureOf (roots : List Int) (members : List (Declaration ResolvedName)) (graph : TemplateMemberGraph) :
    Finset Int :=
  closeReachability (adjacencyTable graph.templateGraphInternalCalls) ∅
    ((members.map declarationSymbol).filter (· ∈ roots))

theorem GraphOf.mem_closureOf_roots (hmember : symbol ∈ members.map declarationSymbol)
    (hroot : symbol ∈ roots) : symbol ∈ closureOf roots members graph :=
  subset_closeReachability (.inr (List.mem_filter.mpr ⟨hmember, by simpa using hroot⟩))

section Graph

variable (h : GraphOf members graph)

include h

theorem GraphOf.closureOf_closed :
    ClosedUnderCalls members fun symbol => symbol ∈ closureOf roots members graph := by
  intro owner target hcalls howner
  exact closeReachability_closed (fun symbol hmem => absurd hmem (Finset.notMem_empty symbol)) howner
    (h.mem_targetsOf.mpr hcalls)

theorem GraphOf.closureOf_least (set : Set Int)
    (hroots : ∀ symbol ∈ roots, symbol ∈ members.map declarationSymbol → symbol ∈ set)
    (hclosed : ClosedUnderCalls members set) : ∀ symbol ∈ closureOf roots members graph, symbol ∈ set := by
  refine closeReachability_least (fun symbol hmem => absurd hmem (Finset.notMem_empty symbol))
    (fun symbol hmem => ?_) fun owner howner target htarget =>
      hclosed owner target (h.mem_targetsOf.mp htarget) howner
  obtain ⟨hmember, hroot⟩ := List.mem_filter.mp hmem
  exact hroots symbol (by simpa using hroot) hmember

theorem GraphOf.mem_members_of_mem_closureOf
    (hmem : symbol ∈ closureOf roots members graph) : symbol ∈ members.map declarationSymbol :=
  h.closureOf_least (fun symbol => symbol ∈ members.map declarationSymbol) (fun _ _ hmember => hmember)
    (fun _ _ hcalls _ => hcalls.1) symbol hmem

theorem GraphOf.symbols_eq :
    (selectFromGraph roots members graph).memberReachabilitySymbols =
      (members.map declarationSymbol).filter (· ∈ closureOf roots members graph) := by
  simp only [selectFromGraph, h.nodes, map_symbol_memberNodes]
  exact List.filter_congr fun _ _ => decide_eq_decide.mpr Iff.rfl

theorem GraphOf.mem_symbols :
    symbol ∈ (selectFromGraph roots members graph).memberReachabilitySymbols ↔
      symbol ∈ closureOf roots members graph := by
  rw [h.symbols_eq, List.mem_filter, decide_eq_true_eq]
  exact and_iff_right_of_imp h.mem_members_of_mem_closureOf

theorem GraphOf.declarations_eq :
    (selectFromGraph roots members graph).memberReachabilityMembers =
      members.filter (declarationSymbol · ∈ closureOf roots members graph) := by
  simp only [selectFromGraph, h.nodes, map_symbol_memberNodes]
  exact List.filter_congr fun _ _ => decide_eq_decide.mpr Iff.rfl

theorem GraphOf.mem_edges {owner target : Int} :
    (owner, target) ∈ (selectFromGraph roots members graph).memberReachabilityEdges ↔
      owner ∈ closureOf roots members graph ∧ CallsSibling members owner target := by
  rw [← h.exists_internal_iff]
  simp only [selectFromGraph, h.nodes, map_symbol_memberNodes, mem_unique, List.mem_map, List.mem_filter,
    decide_eq_true_eq]
  constructor
  · rintro ⟨call, ⟨hcall, howner⟩, hedge⟩
    obtain ⟨rfl, rfl⟩ := Prod.mk.inj hedge
    exact ⟨howner, call, hcall, rfl⟩
  · rintro ⟨howner, call, hcall, hedge⟩
    obtain ⟨rfl, rfl⟩ := Prod.mk.inj hedge
    exact ⟨call, ⟨hcall, howner⟩, rfl⟩

theorem GraphOf.selectFromGraph_exact (hrequested : ∀ symbol ∈ requested, symbol ∈ members.map declarationSymbol)
    (hroots : ∀ symbol, symbol ∈ roots ↔ symbol ∈ requested) :
    ExactSelection requested members (selectFromGraph roots members graph) where
  roots symbol hmem :=
    h.mem_symbols.mpr (GraphOf.mem_closureOf_roots (hrequested symbol hmem) ((hroots symbol).mpr hmem))
  closed owner target hcalls howner :=
    h.mem_symbols.mpr (h.closureOf_closed owner target hcalls (h.mem_symbols.mp howner))
  least set hset hclosed symbol hmem :=
    h.closureOf_least set (fun root hroot _ => hset root ((hroots root).mp hroot)) hclosed symbol
      (h.mem_symbols.mp hmem)
  declarations := by
    rw [h.declarations_eq]
    exact List.filter_congr fun member _ => decide_eq_decide.mpr h.mem_symbols.symm
  symbols := by
    rw [h.declarations_eq, h.symbols_eq, List.filter_map]
    rfl
  edges owner target := h.mem_edges.trans (and_congr_left' h.mem_symbols.symm)

end Graph

/-- Distinct positive members and requests among them are accepted. -/
theorem selectReachableMembersBySymbol_ok
    (hpositive : ∀ member ∈ members, 0 < declarationSymbol member)
    (hdistinct : (members.map declarationSymbol).Nodup)
    (hrequested : ∀ symbol ∈ requested, symbol ∈ members.map declarationSymbol) :
    ∃ graph, buildTemplateMemberGraph members = .ok graph ∧ GraphOf members graph ∧
      selectReachableMembersBySymbol requested members =
        .ok (selectFromGraph (unique requested) members graph) := by
  obtain ⟨graph, hgraph, h⟩ := buildTemplateMemberGraph_ok hpositive hdistinct
  have hmissing : (unique requested).filter (· ∉ graph.templateGraphNodes.map (·.templateMemberSymbol)) = [] := by
    refine List.filter_eq_nil_iff.mpr fun symbol hmem => ?_
    have hmember := hrequested symbol (mem_unique.mp hmem)
    rw [h.nodes, map_symbol_memberNodes]
    simpa using hmember
  refine ⟨graph, hgraph, h, ?_⟩
  simp only [selectReachableMembersBySymbol, hgraph, bind, Except.bind, hmissing]

/-! ## The verifier -/

variable {other : TemplateMemberReachability}

/-- Nothing is wrong with a result exactly when it has none of the faults looked for. -/
theorem reachabilityIssues_eq_nil {available : List Int} {expected : TemplateMemberReachability} :
    reachabilityIssues available expected other = [] ↔
      (∀ root ∈ other.memberReachabilityRoots, root ∈ available) ∧ other.memberReachabilityRoots.Nodup ∧
      (∀ root ∈ other.memberReachabilityRoots, root ∈ other.memberReachabilitySymbols) ∧
      (∀ symbol ∈ other.memberReachabilitySymbols, symbol ∈ available) ∧ other.memberReachabilitySymbols.Nodup ∧
      (∀ edge ∈ expected.memberReachabilityEdges, edge.1 ∈ other.memberReachabilitySymbols →
        edge.2 ∈ other.memberReachabilitySymbols) ∧
      (∀ edge, edge ∈ other.memberReachabilityEdges ↔ edge ∈ expected.memberReachabilityEdges) ∧
      other.memberReachabilitySymbols = other.memberReachabilityMembers.map declarationSymbol ∧
      expected.memberReachabilityStatistics = other.memberReachabilityStatistics := by
  simp [reachabilityIssues, duplicates_eq_nil, iff_iff_implies_and_implies, forall_and, and_assoc]

/-- The expected result depends only on the roots that are members. -/
theorem GraphOf.selectFromGraph_ordered (h : GraphOf members graph) :
    selectFromGraph (selectFromGraph roots members graph).memberReachabilityRoots members graph =
      selectFromGraph roots members graph := by
  have hordered : ((members.map declarationSymbol).filter
      (· ∈ (members.map declarationSymbol).filter (· ∈ roots))) =
        (members.map declarationSymbol).filter (· ∈ roots) :=
    List.filter_congr fun symbol hmem => by simp only [List.mem_filter, hmem, true_and, decide_eq_true_eq]
  simp only [selectFromGraph, h.nodes, map_symbol_memberNodes, hordered]

/-- A result with the roots of a selection is compared with that selection. -/
theorem GraphOf.verify_eq (h : GraphOf members graph) (hgraph : buildTemplateMemberGraph members = .ok graph)
    (hroots : other.memberReachabilityRoots = (selectFromGraph roots members graph).memberReachabilityRoots) :
    verifyTemplateMemberReachability members other =
      .ok (reachabilityIssues (members.map declarationSymbol) (selectFromGraph roots members graph) other) := by
  simp only [verifyTemplateMemberReachability, hgraph, bind, Except.bind, hroots, h.selectFromGraph_ordered, h.nodes,
    map_symbol_memberNodes]
  rfl

theorem GraphOf.issues_eq_nil (h : GraphOf members graph) (hdistinct : (members.map declarationSymbol).Nodup)
    (hroots : other.memberReachabilityRoots = (selectFromGraph roots members graph).memberReachabilityRoots) :
    reachabilityIssues (members.map declarationSymbol) (selectFromGraph roots members graph) other = [] ↔
      Consistent members (selectFromGraph roots members graph) other := by
  have hordered : other.memberReachabilityRoots = (members.map declarationSymbol).filter (· ∈ roots) := by
    rw [hroots]
    simp [selectFromGraph, h.nodes]
  have hmem : ∀ root, root ∈ other.memberReachabilityRoots ↔ root ∈ members.map declarationSymbol ∧ root ∈ roots :=
    fun root => by rw [hordered, List.mem_filter, decide_eq_true_eq]
  rw [reachabilityIssues_eq_nil]
  constructor
  · rintro ⟨-, -, hselected, havailable, hunrepeated, hdependencies, hedges, hdeclarations, hstatistics⟩
    refine ⟨fun symbol hsymbol => ?_, havailable, hunrepeated, hdeclarations, hedges, hstatistics⟩
    -- What is in the closure and selected is itself closed, and has the roots.
    have hboth : ∀ symbol ∈ closureOf roots members graph, symbol ∈ closureOf roots members graph ∧
        symbol ∈ other.memberReachabilitySymbols := h.closureOf_least
      (fun symbol => symbol ∈ closureOf roots members graph ∧ symbol ∈ other.memberReachabilitySymbols)
      (fun root hroot hmember => ⟨GraphOf.mem_closureOf_roots hmember hroot,
        hselected root ((hmem root).mpr ⟨hmember, hroot⟩)⟩)
      (fun owner target hcalls howner => ⟨h.closureOf_closed owner target hcalls howner.1,
        hdependencies (owner, target) (h.mem_edges.mpr ⟨howner.1, hcalls⟩) howner.2⟩)
    exact (hboth symbol (h.mem_symbols.mp hsymbol)).2
  · intro hconsistent
    refine ⟨fun root hroot => ((hmem root).mp hroot).1, ?_, fun root hroot => ?_, hconsistent.available,
      hconsistent.distinct, fun edge hedge _ => ?_, hconsistent.edges, hconsistent.declarations,
      hconsistent.statistics⟩
    · rw [hordered]
      exact hdistinct.filter _
    · obtain ⟨hmember, hroot⟩ := (hmem root).mp hroot
      exact hconsistent.complete root (h.mem_symbols.mpr (GraphOf.mem_closureOf_roots hmember hroot))
    · obtain ⟨howner, hcalls⟩ := h.mem_edges.mp hedge
      exact hconsistent.complete edge.2 (h.mem_symbols.mpr (h.closureOf_closed _ _ hcalls howner))

/-- The expected result is consistent with itself. -/
theorem GraphOf.consistent_self (h : GraphOf members graph) (hdistinct : (members.map declarationSymbol).Nodup) :
    Consistent members (selectFromGraph roots members graph) (selectFromGraph roots members graph) where
  complete _ hmem := hmem
  available symbol hmem := h.mem_members_of_mem_closureOf (h.mem_symbols.mp hmem)
  distinct := by
    rw [h.symbols_eq]
    exact hdistinct.filter _
  declarations := by
    rw [h.declarations_eq, h.symbols_eq, List.filter_map]
    rfl
  edges _ := Iff.rfl
  statistics := rfl

/-- The selection is the least set with the requested members that is closed under calls between siblings. The
verifier accepts it, and of the results with its roots only those that are consistent with it. -/
theorem selectReachableMembersBySymbol_exact
    (hpositive : ∀ member ∈ members, 0 < declarationSymbol member)
    (hdistinct : (members.map declarationSymbol).Nodup)
    (hrequested : ∀ symbol ∈ requested, symbol ∈ members.map declarationSymbol) :
    ∃ result, selectReachableMembersBySymbol requested members = .ok result ∧
      ExactSelection requested members result ∧ verifyTemplateMemberReachability members result = .ok [] ∧
      ∀ other, other.memberReachabilityRoots = result.memberReachabilityRoots →
        ∃ issues, verifyTemplateMemberReachability members other = .ok issues ∧
          (issues = [] → Consistent members result other) := by
  obtain ⟨graph, hgraph, h, hselect⟩ := selectReachableMembersBySymbol_ok hpositive hdistinct hrequested
  refine ⟨selectFromGraph (unique requested) members graph, hselect,
    h.selectFromGraph_exact hrequested fun _ => mem_unique, ?_,
    fun other hroots => ⟨_, h.verify_eq hgraph hroots, (h.issues_eq_nil hdistinct hroots).mp⟩⟩
  rw [h.verify_eq hgraph rfl, (h.issues_eq_nil hdistinct rfl).mpr (h.consistent_self hdistinct)]

end Selection

/-- A function without parameters. -/
def plainMember (symbol : Int) (spelling : Identifier) (body : List (Statement ResolvedName)) :
    Declaration ResolvedName :=
  .functionDeclaration emptySpan ⟨symbol, spelling⟩ (.functionType [] (.namedType ["int"] []))
    (.explicitType "int") [] body false .defaultAccess

/-- The name of a member, as an expression. -/
def memberNameExpression (symbol : Int) (spelling : Identifier) : Expression ResolvedName :=
  .nameExpression emptySpan ⟨symbol, spelling⟩ (.functionType [] (.namedType ["int"] []))

/-- The statement `return spelling();`. -/
def returnCall (symbol : Int) (spelling : Identifier) : Statement ResolvedName :=
  .returnStatement emptySpan
    (some (.callExpression emptySpan (memberNameExpression symbol spelling) [] (.namedType ["int"] [])))

/-- `Entry` calls `Normalize`, which calls `Finish`; nothing calls `Spare`. -/
def chainMembers : List (Declaration ResolvedName) :=
  [plainMember 1 "Entry" [returnCall 2 "Normalize"], plainMember 2 "Normalize" [returnCall 3 "Finish"],
    plainMember 3 "Finish" [], plainMember 4 "Spare" []]

theorem selectReachableMembersBySymbol_exact_chain :
    ∃ result, selectReachableMembersBySymbol [1] chainMembers = .ok result ∧
      ExactSelection [1] chainMembers result ∧ verifyTemplateMemberReachability chainMembers result = .ok [] ∧
      ∀ other, other.memberReachabilityRoots = result.memberReachabilityRoots →
        ∃ issues, verifyTemplateMemberReachability chainMembers other = .ok issues ∧
          (issues = [] → Consistent chainMembers result other) :=
  selectReachableMembersBySymbol_exact
    (by simp [chainMembers, plainMember, declarationSymbol, declarationName])
    (by simp [chainMembers, plainMember, declarationSymbol, declarationName])
    (by simp [chainMembers, plainMember, declarationSymbol, declarationName])

/-! ## Members used as values -/

/-- Somewhere in the body of a member, at any depth, a symbol is named: as a callee or as a value. -/
def Names (member : Declaration ResolvedName) (target : Int) : Prop :=
  ∃ statement ∈ memberBody member, ∃ inner, (CodePart.statement statement).Contains inner ∧
    ∃ span name annotated, inner = .expression (.nameExpression span name annotated) ∧ name.resolvedSymbol = target

/-- `Entry` returns `Helper` without calling it. -/
def valueMembers : List (Declaration ResolvedName) :=
  [plainMember 1 "Entry" [.returnStatement emptySpan (some (memberNameExpression 2 "Helper"))],
    plainMember 2 "Helper" []]

theorem valueMembers_positive : ∀ member ∈ valueMembers, 0 < declarationSymbol member := by
  simp [valueMembers, plainMember, declarationSymbol, declarationName]

theorem valueMembers_distinct : (valueMembers.map declarationSymbol).Nodup := by
  simp [valueMembers, plainMember, declarationSymbol, declarationName]

theorem entry_mem_valueMembers : ∀ symbol ∈ [1], symbol ∈ valueMembers.map declarationSymbol := by
  simp [valueMembers, plainMember, declarationSymbol, declarationName]

/-- No body of these calls anything, so that the entry alone is closed. -/
theorem closureOf_valueMembers {graph : TemplateMemberGraph} (h : GraphOf valueMembers graph) (symbol : Int) :
    symbol ∈ closureOf (unique [1]) valueMembers graph ↔ symbol = 1 := by
  constructor
  · refine h.closureOf_least {1} (fun root hroot _ => by simpa using hroot) (fun owner target hcalls _ => ?_) symbol
    obtain ⟨-, member, hmember, -, hcall⟩ := hcalls
    obtain ⟨call, hfound, -⟩ := exists_memberCall owner hcall
    rcases List.mem_cons.mp hmember with rfl | hmember
    · exact absurd hfound List.not_mem_nil
    · obtain rfl := List.mem_singleton.mp hmember
      exact absurd hfound List.not_mem_nil
  · rintro rfl
    exact GraphOf.mem_closureOf_roots (entry_mem_valueMembers 1 (by simp)) (by simp)

/-- The selection of the entry, with the helper as well. -/
def largerSelection (graph : TemplateMemberGraph) : TemplateMemberReachability :=
  { selectFromGraph (unique [1]) valueMembers graph with
    memberReachabilitySymbols := valueMembers.map declarationSymbol
    memberReachabilityMembers := valueMembers }

/-- A sibling that is used as a value is dropped, and a selection with that sibling is accepted all the same. -/
theorem value_use_is_dropped :
    (¬∀ (requested : List Int) (members : List (Declaration ResolvedName)),
      (∀ member ∈ members, 0 < declarationSymbol member) → (members.map declarationSymbol).Nodup →
      (∀ symbol ∈ requested, symbol ∈ members.map declarationSymbol) →
      ∃ result, selectReachableMembersBySymbol requested members = .ok result ∧
        ∀ member ∈ members, declarationSymbol member ∈ result.memberReachabilitySymbols →
          ∀ sibling ∈ members, Names member (declarationSymbol sibling) →
            declarationSymbol sibling ∈ result.memberReachabilitySymbols) ∧
    ∃ result other, selectReachableMembersBySymbol [1] valueMembers = .ok result ∧
      other.memberReachabilityRoots = result.memberReachabilityRoots ∧
      other.memberReachabilitySymbols ≠ result.memberReachabilitySymbols ∧
      verifyTemplateMemberReachability valueMembers other = .ok [] := by
  obtain ⟨graph, hgraph, h, hselect⟩ := selectReachableMembersBySymbol_ok valueMembers_positive
    valueMembers_distinct entry_mem_valueMembers
  have hselected : ∀ symbol, symbol ∈ (selectFromGraph (unique [1]) valueMembers graph).memberReachabilitySymbols ↔
      symbol = 1 := fun symbol => h.mem_symbols.trans (closureOf_valueMembers h symbol)
  constructor
  · intro hclaim
    obtain ⟨result, hresult, hnames⟩ :=
      hclaim [1] valueMembers valueMembers_positive valueMembers_distinct entry_mem_valueMembers
    obtain rfl := Except.ok.inj (hselect.symm.trans hresult)
    have hhelper := hnames _ (List.mem_cons_self ..) ((hselected _).mpr rfl) _
      (List.mem_cons_of_mem _ (List.mem_singleton_self _))
      ⟨_, List.mem_singleton_self _, _, .single (List.mem_singleton_self _), _, _, _, rfl, rfl⟩
    exact absurd ((hselected _).mp hhelper) (by decide)
  · refine ⟨_, largerSelection graph, hselect, rfl, fun heq => ?_, ?_⟩
    · have htwo := (hselected 2).mp (heq ▸ List.mem_cons_of_mem _ (List.mem_singleton_self _))
      exact absurd htwo (by decide)
    · have hconsistent : Consistent valueMembers (selectFromGraph (unique [1]) valueMembers graph)
          (largerSelection graph) := by
        refine ⟨fun symbol hmem => ?_, fun symbol hmem => hmem, valueMembers_distinct, rfl, fun _ => Iff.rfl, rfl⟩
        obtain rfl := (hselected symbol).mp hmem
        exact List.mem_cons_self
      have hroots : (largerSelection graph).memberReachabilityRoots =
          (selectFromGraph (unique [1]) valueMembers graph).memberReachabilityRoots := rfl
      rw [h.verify_eq hgraph hroots, (h.issues_eq_nil valueMembers_distinct hroots).mpr hconsistent]

end Tala.Frontend
