import Mathlib.Data.Finset.Lattice.Fold
import Mathlib.Data.Fintype.Pi
import Mathlib.Data.Fintype.Powerset
import Mathlib.Data.Fintype.Prod
import Mathlib.Data.Fintype.Sets
import Mathlib.Order.Fin.Basic
import Tala.Analysis.ControlFlow

/-!
# `Analysis.OwnershipFlow` — the forward may-analysis of ownership handles

`analyze` computes, for every reachable block, the ownership states that may reach it and leave it, and
sweeps the actions of each block for requirements that some of those states do not meet. A state mask is
the set of states it stands for; a packed state has one mask for every handle of the catalog. Block and
handle identities are unbounded here.

The worklist of the source runs until it is empty: `analyze` takes the number of its steps, and answers
nothing when they are not enough.
-/

namespace Tala.Analysis.OwnershipFlow

open Library.Catalog

abbrev BlockId := Nat
abbrev HandleId := Nat

/-- The runtime representation of a handle. -/
inductive HandleKind
  | strong | weak | unowned
deriving DecidableEq, Repr

inductive ActionKind
  | observe | consume | define | forget
deriving DecidableEq, Repr

/-- One ownership-sensitive use or definition at an instruction boundary. -/
structure Action where
  kind : ActionKind
  handle : HandleId
  expected : HandleKind
  instruction : Nat
  terminator : Bool
deriving DecidableEq, Repr

structure Block where
  id : BlockId
  successors : List BlockId
  actions : List Action
deriving DecidableEq, Repr

structure InitialHandle where
  handle : HandleId
  kind : HandleKind
deriving DecidableEq, Repr

structure Function where
  entry : BlockId
  initialHandles : List InitialHandle
  blocks : List Block
deriving DecidableEq, Repr

/-- The ownership state of one handle; each is one bit of a mask. -/
inductive HandleState
  | absent | strong | weak | unowned | consumed
deriving DecidableEq, Repr

instance : Fintype HandleState where
  elems := {.absent, .strong, .weak, .unowned, .consumed}
  complete := fun state => by cases state <;> decide

/-- The ownership states that may reach one program point. -/
abbrev StateMask := Finset HandleState

def kAbsent : StateMask := {.absent}
def kStrong : StateMask := {.strong}
def kWeak : StateMask := {.weak}
def kUnowned : StateMask := {.unowned}
def kConsumed : StateMask := {.consumed}

def liveMask : StateMask := kStrong ∪ kWeak ∪ kUnowned

def stateFor : HandleKind → StateMask
  | .strong => kStrong
  | .weak => kWeak
  | .unowned => kUnowned

def contains (states state : StateMask) : Bool := (states ∩ state) ≠ ∅

inductive IssueKind
  | duplicateBlock | missingEntry | invalidTarget | invalidInitialHandle | conflictingInitialKind
  | invalidActionHandle | useAfterConsume | handleKindMismatch | pathStateMismatch
deriving DecidableEq, Repr

structure Issue where
  kind : IssueKind
  block : BlockId
  instruction : Nat
  terminator : Bool
  handle : HandleId
  expected : HandleKind
  actual : StateMask
deriving DecidableEq

structure HandleFact where
  handle : HandleId
  states : StateMask
deriving DecidableEq

structure BlockFacts where
  block : BlockId
  reachable : Bool
  incoming : List HandleFact
  outgoing : List HandleFact
deriving DecidableEq

/-- What the analysis answers, less the counters of its scheduler. -/
structure Result where
  facts : List BlockFacts
  issues : List Issue
deriving DecidableEq

/-! ## The function as a graph -/

def controlFlowFor (function : Function) : ControlFlowGraph where
  entry := function.entry
  blocks := function.blocks.map fun block => { id := block.id, successors := block.successors }

/-- The first block record of an identity. -/
def Function.findBlock (function : Function) (id : BlockId) : Option Block :=
  function.blocks.find? (fun block => block.id == id)

/-- The actions of a block. -/
def Function.actionsOf (function : Function) (id : BlockId) : List Action :=
  match function.findBlock id with
  | none => []
  | some block => block.actions

/-- The issue a control-flow issue becomes. A missing target is reported at the terminator. -/
def controlFlowIssue (actionsOf : BlockId → List Action) (issue : ControlFlowIssue) : Issue :=
  let kind : IssueKind :=
    match issue.kind with
    | .duplicateBlock => .duplicateBlock
    | .missingEntry => .missingEntry
    | .missingTarget => .invalidTarget
  let missingTarget := issue.kind == .missingTarget
  { kind := kind, block := issue.block,
    instruction := if missingTarget then (actionsOf issue.block).length else 0,
    terminator := missingTarget, handle := 0, expected := .strong, actual := kAbsent }

/-! ## Handles and packed states -/

/-- All handles the function names, ascending. Identity zero is no handle. -/
def buildHandleCatalog (function : Function) : List HandleId :=
  sortedUnique
    (((function.initialHandles.map InitialHandle.handle).filter (· ≠ 0))
      ++ ((function.blocks.flatMap Block.actions).map Action.handle).filter (· ≠ 0))

/-- One mask for every handle of a catalog. -/
abbrev PackedState (catalog : List HandleId) := Fin catalog.length → StateMask

section States

variable {catalog : List HandleId}

/-- Record one initial handle, with the issue it gives rise to. -/
def recordInitial (entry : BlockId) (states : PackedState catalog) (initial : InitialHandle) :
    PackedState catalog × List Issue :=
  if initial.handle = 0 then
    (states, [{ kind := .invalidInitialHandle, block := entry, instruction := 0, terminator := false,
                handle := 0, expected := initial.kind, actual := kAbsent }])
  else
    match index? catalog initial.handle with
    | none => (states, [])
    | some index =>
        let expected := stateFor initial.kind
        let actual := states index
        (Function.update states index ((if actual = kAbsent then ∅ else actual) ∪ expected),
          if actual ≠ kAbsent ∧ actual ≠ expected then
            [{ kind := .conflictingInitialKind, block := entry, instruction := 0, terminator := false,
               handle := initial.handle, expected := initial.kind, actual := actual }]
          else [])

/-- Record the initial handles in order. -/
def recordInitials (entry : BlockId) (states : PackedState catalog) :
    List InitialHandle → PackedState catalog × List Issue
  | [] => (states, [])
  | initial :: rest =>
      let recorded := recordInitial entry states initial
      let later := recordInitials entry recorded.1 rest
      (later.1, recorded.2 ++ later.2)

/-- The state in which the caller enters the function. -/
def initialState (catalog : List HandleId) (entry : BlockId) (initialHandles : List InitialHandle) :
    PackedState catalog × List Issue :=
  recordInitials entry (fun _ => kAbsent) initialHandles

/-- The effect of an action on the mask of its handle. -/
def applyMask (action : Action) (actual : StateMask) : StateMask :=
  match action.kind with
  | .observe => actual
  | .consume =>
      let expected := stateFor action.expected
      if actual ∩ expected ≠ ∅ then (actual \ expected) ∪ kConsumed else actual
  | .define => stateFor action.expected
  | .forget => kAbsent

def apply (action : Action) (states : PackedState catalog) : PackedState catalog :=
  match index? catalog action.handle with
  | none => states
  | some index => Function.update states index (applyMask action (states index))

def transfer (actions : List Action) (incoming : PackedState catalog) : PackedState catalog :=
  actions.foldl (fun states action => apply action states) incoming

/-- The union of the states that leave the predecessors. Entry facts are fixed by the external caller:
a back edge cannot manufacture an initial token. Only reachable predecessors are listed, and each of
them has an outgoing state. -/
def joinPredecessors (entry : BlockId) (flow : ControlFlowResult) (initial : PackedState catalog)
    (outgoing : BlockId → PackedState catalog) (block : BlockId) : PackedState catalog :=
  if block = entry then initial
  else
    match flow.flowFact block with
    | none => fun _ => kAbsent
    | some fact =>
        if fact.predecessors = [] then fun _ => kAbsent
        else
          fact.predecessors.foldl (fun joined predecessor => joined ⊔ outgoing predecessor) fun _ => ∅

/-- The states before and after a block, from the states after the others. -/
def evaluate (entry : BlockId) (flow : ControlFlowResult) (actionsOf : BlockId → List Action)
    (initial : PackedState catalog) (facts : BlockId → PackedState catalog × PackedState catalog)
    (block : BlockId) : PackedState catalog × PackedState catalog :=
  let incoming := joinPredecessors entry flow initial (fun b => (facts b).2) block
  (incoming, transfer (actionsOf block) incoming)

/-- The states before and after every reachable block. -/
def computeFixedPoint (entry : BlockId) (flow : ControlFlowResult) (actionsOf : BlockId → List Action)
    (initial : PackedState catalog) (steps : Nat) :
    Option (BlockId → PackedState catalog × PackedState catalog) :=
  flow.solve .forward (evaluate entry flow actionsOf initial) (fun _ => (fun _ => ∅, fun _ => ∅)) steps

/-! ## The issue sweep -/

def hasOtherLiveKind (actual expected : StateMask) : Bool := ((actual ∩ liveMask) \ expected) ≠ ∅

/-- What is wrong with the states that reach a requirement. An absent handle is left to definite
initialization. -/
def requirementIssue (expected actual : StateMask) : Option IssueKind :=
  let hasExpected := contains actual expected
  let hasConsumed := contains actual kConsumed
  let hasAbsent := contains actual kAbsent
  let hasOtherKind := hasOtherLiveKind actual expected
  if hasExpected && (hasConsumed || hasAbsent || hasOtherKind) then some .pathStateMismatch
  else if !hasExpected && hasConsumed then some .useAfterConsume
  else if !hasExpected && hasOtherKind then some .handleKindMismatch
  else none

def validateRequirement (action : Action) (block : BlockId) (actual : StateMask) : List Issue :=
  match requirementIssue (stateFor action.expected) actual with
  | none => []
  | some kind =>
      [{ kind := kind, block := block, instruction := action.instruction,
         terminator := action.terminator, handle := action.handle, expected := action.expected,
         actual := actual }]

/-- The issues of one action in the states that reach it. -/
def validateAction (block : BlockId) (states : PackedState catalog) (action : Action) : List Issue :=
  if action.handle = 0 then
    [{ kind := .invalidActionHandle, block := block, instruction := action.instruction,
       terminator := action.terminator, handle := 0, expected := action.expected, actual := kAbsent }]
  else
    match index? catalog action.handle with
    | none => []
    | some index =>
        if action.kind = .observe ∨ action.kind = .consume then
          validateRequirement action block (states index)
        else []

/-- The issues of the actions of a block, in order. -/
def validateActions (block : BlockId) (states : PackedState catalog) : List Action → List Issue
  | [] => []
  | action :: rest =>
      validateAction block states action ++ validateActions block (apply action states) rest

/-! ## The result -/

def visibleFacts (states : PackedState catalog) : List HandleFact :=
  (List.finRange catalog.length).map fun index =>
    { handle := catalog.get index, states := if states index = ∅ then kAbsent else states index }

def buildFacts (flow : ControlFlowResult)
    (facts : BlockId → PackedState catalog × PackedState catalog) : List BlockFacts :=
  flow.facts.map fun record =>
    { block := record.block, reachable := record.reachable,
      incoming := visibleFacts (if record.reachable then (facts record.block).1 else fun _ => kAbsent),
      outgoing := visibleFacts (if record.reachable then (facts record.block).2 else fun _ => kAbsent) }

end States

/-- The analysis after its control flow and its handles are known. -/
def analyzeWith (catalog : List HandleId) (entry : BlockId) (initialHandles : List InitialHandle)
    (flow : ControlFlowResult) (actionsOf : BlockId → List Action) (materializeFacts : Bool)
    (steps : Nat) : Option Result :=
  let initial := initialState catalog entry initialHandles
  (computeFixedPoint entry flow actionsOf initial.1 steps).map fun facts =>
    { facts := if materializeFacts then buildFacts flow facts else [],
      issues := flow.issues.map (controlFlowIssue actionsOf) ++ initial.2
        ++ flow.preorder.flatMap fun block => validateActions block (facts block).1 (actionsOf block) }

/-- Compute the forward may-state fixed point and sweep it for issues. -/
def analyze (function : Function) (materializeFacts : Bool) (steps : Nat) : Option Result :=
  analyzeWith (buildHandleCatalog function) function.entry function.initialHandles
    (analyzeControlFlow (controlFlowFor function)) function.actionsOf materializeFacts steps

end Tala.Analysis.OwnershipFlow
