import Mathlib.Data.Finset.Sort
import Tala.Analysis.ControlFlow
import Tala.Library.Search

/-!
# `Analysis.Dominance` — dominators, post-dominators and frontiers

`analyzeDominance` computes for every reachable block of a graph its dominators, its immediate dominator
and its frontier, and the same on the reversed graph when every reachable block can reach an exit. Sets of
dominators shrink from all blocks in passes over the blocks until a pass changes nothing; the analysis
answers nothing when this takes more than the given number of passes.

A map from blocks is a function here; the blocks it is defined for are the reachable ones.
-/

namespace Tala.Analysis

open Library.Dataflow Library.Search

abbrev BlockSet := Finset ControlFlowBlockId

/-- Dominance and post-dominance facts of one block. -/
structure DominanceBlockFacts where
  block : ControlFlowBlockId
  reachable : Bool
  immediateDominator : Option ControlFlowBlockId
  immediatePostDominator : Option ControlFlowBlockId
  dominators : List ControlFlowBlockId
  postDominators : List ControlFlowBlockId
  dominanceFrontier : List ControlFlowBlockId
  postDominanceFrontier : List ControlFlowBlockId
deriving DecidableEq, Repr

structure DominanceResult where
  controlFlow : ControlFlowResult
  facts : List DominanceBlockFacts
  exits : List ControlFlowBlockId
  hasPostDominance : Bool
deriving DecidableEq, Repr

namespace Dominance

def reachableIds (flow : ControlFlowResult) : BlockSet := flow.preorder.toFinset

/-- The edges of the reachable blocks. -/
def reachableEdges (flow : ControlFlowResult) (reverse : Bool) (block : ControlFlowBlockId) :
    List ControlFlowBlockId :=
  match flow.flowFact block with
  | none => []
  | some facts =>
      if facts.reachable then if reverse then facts.predecessors else facts.successors else []

def toVector (values : BlockSet) : List ControlFlowBlockId := values.sort (· ≤ ·)

/-! ## Dominating sets -/

/-- The blocks in the sets of all inputs; the sets are there for the given nodes. -/
def intersectInputs (nodes : BlockSet) (sets : ControlFlowBlockId → BlockSet) :
    List ControlFlowBlockId → BlockSet
  | [] => nodes
  | first :: rest =>
      rest.foldl (fun result input => if input ∈ nodes then result ∩ sets input else ∅)
        (if first ∈ nodes then sets first else nodes)

/-- The set of a block from those of its predecessors. A root keeps its own. -/
def dominatingSet (nodes : BlockSet) (roots : List ControlFlowBlockId)
    (predecessors : ControlFlowBlockId → List ControlFlowBlockId) (sets : ControlFlowBlockId → BlockSet)
    (node : ControlFlowBlockId) : BlockSet :=
  if node ∈ roots then sets node
  else
    match predecessors node with
    | [] => {node}
    | incoming => insert node (intersectInputs nodes sets incoming)

def startSet (nodes : BlockSet) (roots : List ControlFlowBlockId) (node : ControlFlowBlockId) : BlockSet :=
  if node ∈ roots then {node} else nodes

def computeDominatingSets (nodes : BlockSet) (roots : List ControlFlowBlockId)
    (predecessors : ControlFlowBlockId → List ControlFlowBlockId)
    (visitOrder : List ControlFlowBlockId) (steps : Nat) : Option (ControlFlowBlockId → BlockSet) :=
  (Equations.mk (dominatingSet nodes roots predecessors) fun _ => []).passes visitOrder steps
    (startSet nodes roots)

/-! ## Immediate parents -/

/-- The candidate with the most dominators, the first of those when there are several. -/
def nearest (dominatingSets : ControlFlowBlockId → BlockSet) (candidates : List ControlFlowBlockId) :
    Option ControlFlowBlockId × Nat :=
  candidates.foldl (fun best candidate =>
    let depth := (dominatingSets candidate).card
    if best.1.isNone || depth > best.2 then (some candidate, depth) else best) (none, 0)

def immediateParent (roots : List ControlFlowBlockId) (dominatingSets : ControlFlowBlockId → BlockSet)
    (node : ControlFlowBlockId) : Option ControlFlowBlockId :=
  if node ∈ roots then none
  else (nearest dominatingSets (toVector ((dominatingSets node).erase node))).1

/-! ## Frontiers -/

/-- The blocks from a runner up the parents, before the one to stop at and before any is met again. -/
def runners (parents : ControlFlowBlockId → Option ControlFlowBlockId) (stop : Option ControlFlowBlockId) :
    Nat → List ControlFlowBlockId → Option ControlFlowBlockId → List ControlFlowBlockId
  | 0, _, _ => []
  | _ + 1, _, none => []
  | fuel + 1, visited, some runner =>
      if some runner = stop ∨ runner ∈ visited then []
      else runner :: runners parents stop fuel (runner :: visited) (parents runner)

/-- Put a join into the frontier of a block. -/
def addJoin (join : ControlFlowBlockId) (frontiers : ControlFlowBlockId → BlockSet)
    (runner : ControlFlowBlockId) : ControlFlowBlockId → BlockSet :=
  Function.update frontiers runner (insert join (frontiers runner))

def addRunners (nodes : BlockSet) (parents : ControlFlowBlockId → Option ControlFlowBlockId)
    (join : ControlFlowBlockId) (frontiers : ControlFlowBlockId → BlockSet)
    (predecessor : ControlFlowBlockId) : ControlFlowBlockId → BlockSet :=
  (runners parents (parents join) nodes.card [] (some predecessor)).foldl (addJoin join) frontiers

def computeFrontiers (nodes : BlockSet) (predecessors : ControlFlowBlockId → List ControlFlowBlockId)
    (parents : ControlFlowBlockId → Option ControlFlowBlockId) : ControlFlowBlockId → BlockSet :=
  (toVector nodes).foldl (fun frontiers join =>
    if (predecessors join).length < 2 then frontiers
    else (predecessors join).foldl (addRunners nodes parents join) frontiers) fun _ => ∅

/-! ## Exits -/

def findExits (flow : ControlFlowResult) : List ControlFlowBlockId :=
  (flow.facts.filter fun facts => facts.reachable && facts.successors.isEmpty).map
    ControlFlowBlockFacts.block

def everyReachableBlockCanReachAnExit (nodes : BlockSet) (exits : List ControlFlowBlockId)
    (predecessors : ControlFlowBlockId → List ControlFlowBlockId) : Bool :=
  !exits.isEmpty && (Worklist.run predecessors exits (2 * nodes.card)).seen = nodes

/-! ## The analysis -/

/-- Dominating sets, parents and frontiers in one direction. -/
structure DominanceRelation where
  dominators : ControlFlowBlockId → BlockSet
  parents : ControlFlowBlockId → Option ControlFlowBlockId
  frontiers : ControlFlowBlockId → BlockSet

def computeRelation (nodes : BlockSet) (roots : List ControlFlowBlockId)
    (predecessors : ControlFlowBlockId → List ControlFlowBlockId)
    (visitOrder : List ControlFlowBlockId) (steps : Nat) : Option DominanceRelation :=
  (computeDominatingSets nodes roots predecessors visitOrder steps).map fun dominators =>
    { dominators := dominators, parents := immediateParent roots dominators,
      frontiers := computeFrontiers nodes predecessors (immediateParent roots dominators) }

def buildBlockFacts (forward : DominanceRelation) (post : Option DominanceRelation) (flowFacts : ControlFlowBlockFacts) :
    DominanceBlockFacts :=
  if flowFacts.reachable then
    { block := flowFacts.block, reachable := true,
      immediateDominator := forward.parents flowFacts.block,
      immediatePostDominator := post.bind fun relation => relation.parents flowFacts.block,
      dominators := toVector (forward.dominators flowFacts.block),
      postDominators := (post.map fun relation => toVector (relation.dominators flowFacts.block)).getD [],
      dominanceFrontier := toVector (forward.frontiers flowFacts.block),
      postDominanceFrontier :=
        (post.map fun relation => toVector (relation.frontiers flowFacts.block)).getD [] }
  else ⟨flowFacts.block, false, none, none, [], [], [], []⟩

end Dominance

open Dominance

def analyzeDominance (graph : ControlFlowGraph) (steps : Nat) : Option DominanceResult := do
  let controlFlow := analyzeControlFlow graph
  let nodes := reachableIds controlFlow
  let successors := reachableEdges controlFlow false
  let predecessors := reachableEdges controlFlow true
  if nodes = ∅ then
    some ⟨controlFlow, controlFlow.facts.map fun facts => ⟨facts.block, false, none, none, [], [], [], []⟩,
      [], false⟩
  else do
    let forward ← computeRelation nodes [graph.entry] predecessors controlFlow.reversePostorder steps
    let exits := findExits controlFlow
    -- a closed part that does not return would keep all blocks in its sets
    let hasPostDominance := everyReachableBlockCanReachAnExit nodes exits predecessors
    if hasPostDominance then do
      let post ← computeRelation nodes exits successors controlFlow.reversePostorder.reverse steps
      some ⟨controlFlow, controlFlow.facts.map (buildBlockFacts forward (some post)), exits, true⟩
    else
      some ⟨controlFlow, controlFlow.facts.map (buildBlockFacts forward none), exits, false⟩

end Tala.Analysis
