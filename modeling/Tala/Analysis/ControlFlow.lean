import Tala.Library.Catalog
import Tala.Library.Dataflow
import Tala.Library.DepthFirst

/-!
# `Analysis.ControlFlow` — reachability orders, edge facts and the worklist

`analyzeControlFlow` validates a graph of basic blocks, walks it depth first from the entry and lists,
for every block, whether it is reachable and its edges. The first record of a repeated identity is the
canonical one. `DataflowWorklist` seeds the solver of `Library.Dataflow` with the reachable blocks in
an order suited to the direction.

The results other analyses rely on: the traversal orders list exactly the reachable blocks
(`mem_preorder`, `mem_reversePostorder`), the edge facts are those of the graph (`flowFact_eq`), the
worklist's equations are lawful (`forward_lawful`, `backward_lawful`), and nothing depends on the order
in which the blocks are presented (`analyzeControlFlow_perm`).
-/

namespace Tala.Analysis

open Library.Catalog Library.DepthFirst Library.Dataflow

/-- Stable identity of a basic block. -/
abbrev ControlFlowBlockId := Nat

/-- A basic block and its ordered outgoing edges. -/
structure ControlFlowBlock where
  id : ControlFlowBlockId
  successors : List ControlFlowBlockId
deriving DecidableEq, Repr

/-- The graph handed to the analyses; the order of the blocks is presentation only. -/
structure ControlFlowGraph where
  entry : ControlFlowBlockId
  blocks : List ControlFlowBlock
deriving DecidableEq, Repr

inductive ControlFlowIssueKind
  | duplicateBlock | missingEntry | missingTarget
deriving DecidableEq, Repr

structure ControlFlowIssue where
  kind : ControlFlowIssueKind
  block : ControlFlowBlockId
  target : ControlFlowBlockId
deriving DecidableEq, Repr

/-- Reachability and edges of one block. -/
structure ControlFlowBlockFacts where
  block : ControlFlowBlockId
  reachable : Bool
  predecessors : List ControlFlowBlockId
  successors : List ControlFlowBlockId
deriving DecidableEq, Repr

structure ControlFlowResult where
  issues : List ControlFlowIssue
  preorder : List ControlFlowBlockId
  reversePostorder : List ControlFlowBlockId
  facts : List ControlFlowBlockFacts
deriving DecidableEq, Repr

namespace ControlFlowGraph

/-! ## Cataloguing blocks and edges -/

/-- The block record of an identity: the first one. -/
def findBlock (graph : ControlFlowGraph) (id : ControlFlowBlockId) : Option ControlFlowBlock :=
  graph.blocks.find? (fun block => block.id == id)

/-- The identities of the graph, each once, ascending. -/
def blockIds (graph : ControlFlowGraph) : List ControlFlowBlockId :=
  sortedUnique (graph.blocks.map ControlFlowBlock.id)

/-- Every record but the first of its identity is reported. -/
def duplicateIssues (visited : List ControlFlowBlockId) : List ControlFlowBlock → List ControlFlowIssue
  | [] => []
  | block :: rest =>
      if block.id ∈ visited then
        { kind := .duplicateBlock, block := block.id, target := 0 } :: duplicateIssues visited rest
      else duplicateIssues (block.id :: visited) rest

def catalogIssues (graph : ControlFlowGraph) : List ControlFlowIssue :=
  duplicateIssues [] graph.blocks
    ++ (if graph.entry ∈ graph.blockIds then []
        else [{ kind := .missingEntry, block := graph.entry, target := 0 }])

/-- The missing targets of the first record of each identity, in edge order. -/
def missingTargetIssues (graph : ControlFlowGraph) (visited : List ControlFlowBlockId) :
    List ControlFlowBlock → List ControlFlowIssue
  | [] => []
  | block :: rest =>
      if block.id ∈ visited then graph.missingTargetIssues visited rest
      else
        (block.successors.filter (· ∉ graph.blockIds)).map
            (fun target => { kind := .missingTarget, block := block.id, target := target })
          ++ graph.missingTargetIssues (block.id :: visited) rest

/-- The existing targets of a block, in edge order and each once. -/
def validSuccessors (graph : ControlFlowGraph) (id : ControlFlowBlockId) : List ControlFlowBlockId :=
  match graph.findBlock id with
  | none => []
  | some block => (block.successors.filter (· ∈ graph.blockIds)).foldl schedule []

/-- The blocks with an edge to a block, ascending. -/
def predecessorsOf (graph : ControlFlowGraph) (id : ControlFlowBlockId) : List ControlFlowBlockId :=
  graph.blockIds.filter (fun source => id ∈ graph.validSuccessors source)

/-! ## Traversal and facts -/

/-- One step for every block and every edge. -/
def traversalSteps (graph : ControlFlowGraph) : Nat :=
  (graph.blockIds.map (Traversal.cost graph.validSuccessors)).sum

/-- The finished depth-first search; an empty one when the entry is missing. -/
def traversal (graph : ControlFlowGraph) : Traversal ControlFlowBlockId :=
  if graph.entry ∈ graph.blockIds then
    traverse graph.validSuccessors graph.traversalSteps graph.entry
  else ⟨[], [], []⟩

/-- The facts of one block. -/
def blockFacts (graph : ControlFlowGraph) (id : ControlFlowBlockId) : ControlFlowBlockFacts where
  block := id
  reachable := id ∈ graph.traversal.preorder
  predecessors := (graph.predecessorsOf id).filter (· ∈ graph.traversal.preorder)
  successors := (graph.validSuccessors id).insertionSort (· ≤ ·)

end ControlFlowGraph

/-- Validate a graph and compute its traversal orders and edge facts. -/
def analyzeControlFlow (graph : ControlFlowGraph) : ControlFlowResult where
  issues := graph.catalogIssues ++ graph.missingTargetIssues [] graph.blocks
  preorder := graph.traversal.preorder
  reversePostorder := graph.traversal.postorder.reverse
  facts := graph.blockIds.map graph.blockFacts

/-- The facts of a block, when it is in the graph. -/
def ControlFlowResult.flowFact (flow : ControlFlowResult) (id : ControlFlowBlockId) :
    Option ControlFlowBlockFacts :=
  flow.facts.find? (fun facts => facts.block == id)

/-! ## Edges -/

namespace ControlFlowGraph

variable {graph : ControlFlowGraph} {id target : ControlFlowBlockId}

theorem mem_blockIds : id ∈ graph.blockIds ↔ ∃ block ∈ graph.blocks, block.id = id := by
  rw [blockIds, mem_sortedUnique, List.mem_map]

variable {block : ControlFlowBlock} {blocks : List ControlFlowBlock}

theorem findBlock_id (h : graph.findBlock id = some block) : block.id = id := by
  simpa using List.find?_some h

theorem findBlock_mem (h : graph.findBlock id = some block) :
    block ∈ graph.blocks := List.mem_of_find?_eq_some h

theorem mem_validSuccessors : target ∈ graph.validSuccessors id ↔
    ∃ block, graph.findBlock id = some block ∧ target ∈ block.successors ∧ target ∈ graph.blockIds := by
  unfold validSuccessors
  cases hb : graph.findBlock id with
  | none => simp
  | some block =>
      rw [mem_foldl_schedule]
      simp

theorem validSuccessors_mem (h : target ∈ graph.validSuccessors id) : target ∈ graph.blockIds := by
  obtain ⟨_, _, _, htarget⟩ := mem_validSuccessors.mp h
  exact htarget

theorem validSuccessors_source (h : target ∈ graph.validSuccessors id) : id ∈ graph.blockIds := by
  obtain ⟨block, hblock, _⟩ := mem_validSuccessors.mp h
  exact mem_blockIds.mpr ⟨block, findBlock_mem hblock, findBlock_id hblock⟩

theorem validSuccessors_nodup (graph : ControlFlowGraph) (id : ControlFlowBlockId) :
    (graph.validSuccessors id).Nodup := by
  unfold validSuccessors
  cases graph.findBlock id with
  | none => exact List.nodup_nil
  | some block => exact foldl_schedule_nodup List.nodup_nil

theorem mem_predecessorsOf : id ∈ graph.predecessorsOf target ↔ target ∈ graph.validSuccessors id := by
  unfold predecessorsOf
  rw [List.mem_filter, decide_eq_true_eq]
  exact ⟨And.right, fun h => ⟨validSuccessors_source h, h⟩⟩

/-! ## The traversal orders -/

theorem traversal_sound (h : graph.entry ∈ graph.blockIds) :
    graph.traversal.Sound graph.validSuccessors graph.entry := by
  rw [traversal, if_pos h]
  exact traverse_sound _ _ _

theorem traversal_ended (graph : ControlFlowGraph) : graph.traversal.stack = [] := by
  unfold traversal
  by_cases h : graph.entry ∈ graph.blockIds
  · rw [if_pos h]
    exact traverse_ended (sortedUnique_nodup _) (fun _ _ _ ht => validSuccessors_mem ht) h (le_refl _)
  · rw [if_neg h]

/-- A block the entry leads to along existing edges. -/
def IsReachable (graph : ControlFlowGraph) (id : ControlFlowBlockId) : Prop :=
  graph.entry ∈ graph.blockIds ∧ Reachable graph.validSuccessors graph.entry id

theorem IsReachable.next (h : graph.IsReachable id) (hedge : target ∈ graph.validSuccessors id) :
    graph.IsReachable target := ⟨h.1, h.2.tail hedge⟩

/-- **The preorder lists exactly the reachable blocks.** -/
theorem mem_preorder : id ∈ graph.traversal.preorder ↔ graph.IsReachable id := by
  unfold IsReachable
  by_cases h : graph.entry ∈ graph.blockIds
  · rw [(traversal_sound h).mem_preorder_iff graph.traversal_ended]
    exact ⟨fun hr => ⟨h, hr⟩, And.right⟩
  · rw [traversal, if_neg h]
    simp [h]

theorem mem_postorder : id ∈ graph.traversal.postorder ↔ graph.IsReachable id := by
  rw [← mem_preorder]
  by_cases h : graph.entry ∈ graph.blockIds
  · exact ((traversal_sound h).postorder_perm graph.traversal_ended).mem_iff
  · rw [traversal, if_neg h]

theorem IsReachable.mem_blockIds (h : graph.IsReachable id) : id ∈ graph.blockIds := by
  obtain ⟨hentry, hreach⟩ := h
  cases hreach with
  | refl => exact hentry
  | tail _ hedge => exact validSuccessors_mem hedge

/-- A reachable block other than the entry is reached over an edge. -/
theorem IsReachable.exists_edge (h : graph.IsReachable id) (hentry : id ≠ graph.entry) :
    ∃ source, graph.IsReachable source ∧ id ∈ graph.validSuccessors source := by
  obtain ⟨hmem, hpath⟩ := h
  cases hpath with
  | refl => exact absurd rfl hentry
  | tail hpath hedge => exact ⟨_, ⟨hmem, hpath⟩, hedge⟩

theorem traversal_preorder_nodup (graph : ControlFlowGraph) : graph.traversal.preorder.Nodup := by
  by_cases h : graph.entry ∈ graph.blockIds
  · exact (traversal_sound h).nodup
  · rw [traversal, if_neg h]
    exact List.nodup_nil

/-! ## The facts of a block -/

theorem flowFact_eq (graph : ControlFlowGraph) (id : ControlFlowBlockId) :
    (analyzeControlFlow graph).flowFact id
      = if id ∈ graph.blockIds then some (graph.blockFacts id) else none :=
  find?_map_of_key ControlFlowBlockFacts.block graph.blockFacts (fun _ => rfl) graph.blockIds id

theorem flowFact_of_reachable (h : graph.IsReachable id) :
    (analyzeControlFlow graph).flowFact id = some (graph.blockFacts id) := by
  rw [flowFact_eq, if_pos h.mem_blockIds]

theorem reachable_blockFacts : (graph.blockFacts id).reachable = true ↔ graph.IsReachable id := by
  rw [← mem_preorder]
  simp [blockFacts]

theorem mem_predecessors_blockFacts : id ∈ (graph.blockFacts target).predecessors ↔
    graph.IsReachable id ∧ target ∈ graph.validSuccessors id := by
  rw [blockFacts, List.mem_filter, mem_predecessorsOf, decide_eq_true_eq, mem_preorder, and_comm]

theorem mem_successors_blockFacts :
    target ∈ (graph.blockFacts id).successors ↔ target ∈ graph.validSuccessors id := by
  rw [blockFacts, List.mem_insertionSort]

/-! ## Valid graphs -/

theorem duplicateIssues_eq_nil {visited : List ControlFlowBlockId} :
    duplicateIssues visited blocks = [] ↔
      (blocks.map ControlFlowBlock.id).Nodup ∧ ∀ block ∈ blocks, block.id ∉ visited := by
  induction blocks generalizing visited with
  | nil => simp [duplicateIssues]
  | cons first rest ih =>
      unfold duplicateIssues
      by_cases h : first.id ∈ visited
      · simp [h]
      · rw [if_neg h, ih, List.map_cons, List.nodup_cons, List.mem_map]
        constructor
        · rintro ⟨hnodup, hvisited⟩
          refine ⟨⟨?_, hnodup⟩, ?_⟩
          · rintro ⟨block, hblock, hid⟩
            exact hvisited block hblock (by rw [hid]; exact List.mem_cons_self)
          · intro block hblock
            rcases List.mem_cons.mp hblock with rfl | hblock
            · exact h
            · exact fun hm => hvisited block hblock (List.mem_cons_of_mem _ hm)
        · rintro ⟨⟨hfirst, hnodup⟩, hvisited⟩
          refine ⟨hnodup, fun block hblock hm => ?_⟩
          rcases List.mem_cons.mp hm with heq | hm
          · exact hfirst ⟨block, hblock, heq⟩
          · exact hvisited block (List.mem_cons_of_mem _ hblock) hm

theorem missingTargetIssues_eq_nil {visited : List ControlFlowBlockId}
    (hnodup : (blocks.map ControlFlowBlock.id).Nodup) (hvisited : ∀ block ∈ blocks, block.id ∉ visited) :
    graph.missingTargetIssues visited blocks = [] ↔
      ∀ block ∈ blocks, ∀ target ∈ block.successors, target ∈ graph.blockIds := by
  induction blocks generalizing visited with
  | nil => simp [missingTargetIssues]
  | cons first rest ih =>
      rw [List.map_cons, List.nodup_cons] at hnodup
      have hrest : ∀ block ∈ rest, block.id ∉ first.id :: visited := by
        intro block hblock hm
        rcases List.mem_cons.mp hm with heq | hm
        · exact hnodup.1 (List.mem_map.mpr ⟨block, hblock, heq⟩)
        · exact hvisited block (List.mem_cons_of_mem _ hblock) hm
      unfold missingTargetIssues
      rw [if_neg (hvisited first List.mem_cons_self), List.append_eq_nil_iff, ih hnodup.2 hrest,
        List.map_eq_nil_iff, List.filter_eq_nil_iff, List.forall_mem_cons]
      simp

/-- **A graph without issues** has distinct blocks, its entry among them, and no edge out of itself. -/
theorem issues_eq_nil : (analyzeControlFlow graph).issues = [] ↔
    (graph.blocks.map ControlFlowBlock.id).Nodup ∧ graph.entry ∈ graph.blockIds ∧
      ∀ block ∈ graph.blocks, ∀ target ∈ block.successors, target ∈ graph.blockIds := by
  show graph.catalogIssues ++ graph.missingTargetIssues [] graph.blocks = [] ↔ _
  rw [List.append_eq_nil_iff, catalogIssues, List.append_eq_nil_iff, duplicateIssues_eq_nil]
  constructor
  · rintro ⟨⟨⟨hnodup, hvisited⟩, hentry⟩, htargets⟩
    refine ⟨hnodup, ?_, (missingTargetIssues_eq_nil hnodup hvisited).mp htargets⟩
    by_contra hmissing
    rw [if_neg hmissing] at hentry
    cases hentry
  · rintro ⟨hnodup, hentry, htargets⟩
    have hvisited : ∀ block ∈ graph.blocks, block.id ∉ ([] : List ControlFlowBlockId) :=
      fun _ _ => List.not_mem_nil
    exact ⟨⟨⟨hnodup, hvisited⟩, if_pos hentry⟩,
      (missingTargetIssues_eq_nil hnodup hvisited).mpr htargets⟩

/-- The edges of a valid graph are the listed ones. -/
theorem mem_validSuccessors_of_valid (hvalid : (analyzeControlFlow graph).issues = [])
    (hblock : graph.findBlock id = some block)
    (htarget : target ∈ block.successors) : target ∈ graph.validSuccessors id :=
  mem_validSuccessors.mpr ⟨block, hblock, htarget,
    (issues_eq_nil.mp hvalid).2.2 block (findBlock_mem hblock) target htarget⟩

/-! ## The presentation order of the blocks -/

theorem blockIds_perm (h : graph.blocks.Perm blocks) : blockIds ⟨graph.entry, blocks⟩ = graph.blockIds := by
  refine sortedUnique_congr fun x => ?_
  rw [(h.map ControlFlowBlock.id).mem_iff]

theorem validSuccessors_perm (h : graph.blocks.Perm blocks) (hnodup : (graph.blocks.map ControlFlowBlock.id).Nodup) :
    validSuccessors ⟨graph.entry, blocks⟩ = graph.validSuccessors := by
  funext id
  unfold validSuccessors findBlock
  rw [find?_eq_of_perm ControlFlowBlock.id h hnodup id, blockIds_perm h]

/-- **The analysis of a valid graph does not depend on the order of its blocks.** -/
theorem analyzeControlFlow_perm (h : graph.blocks.Perm blocks) (hvalid : (analyzeControlFlow graph).issues = []) :
    analyzeControlFlow ⟨graph.entry, blocks⟩ = analyzeControlFlow graph := by
  obtain ⟨hnodup, hentry, htargets⟩ := issues_eq_nil.mp hvalid
  have hids := blockIds_perm h
  have hsuccessors := validSuccessors_perm h hnodup
  have hissues : (analyzeControlFlow ⟨graph.entry, blocks⟩).issues = [] := by
    rw [issues_eq_nil, hids]
    refine ⟨(h.map ControlFlowBlock.id).nodup_iff.mp hnodup, hentry, ?_⟩
    exact fun block hblock => htargets block (h.mem_iff.mpr hblock)
  have htraversal : traversal ⟨graph.entry, blocks⟩ = graph.traversal := by
    unfold traversal traversalSteps
    rw [hids, hsuccessors]
  have hfacts : blockFacts ⟨graph.entry, blocks⟩ = graph.blockFacts := by
    funext id
    unfold blockFacts predecessorsOf
    rw [htraversal, hids, hsuccessors]
  have hparts : analyzeControlFlow ⟨graph.entry, blocks⟩
      = { analyzeControlFlow graph with
          issues := (analyzeControlFlow ⟨graph.entry, blocks⟩).issues } := by
    unfold analyzeControlFlow
    rw [htraversal, hids, hfacts]
  rw [hparts, hissues, ← hvalid]

/-- Two graphs with the same blocks and edges, each listed in its own order. -/
structure SameEdges (graph other : ControlFlowGraph) : Prop where
  entry : other.entry = graph.entry
  blockIds : other.blockIds = graph.blockIds
  validSuccessors : ∀ id target, target ∈ other.validSuccessors id ↔ target ∈ graph.validSuccessors id

variable {other : ControlFlowGraph}

theorem SameEdges.isReachable_iff (h : SameEdges graph other) (id : ControlFlowBlockId) :
    other.IsReachable id ↔ graph.IsReachable id := by
  have hedges : (fun source target => target ∈ other.validSuccessors source)
      = fun source target => target ∈ graph.validSuccessors source := by
    funext source target
    exact propext (h.validSuccessors source target)
  unfold IsReachable Reachable
  rw [h.entry, h.blockIds, hedges]

theorem SameEdges.refl (graph : ControlFlowGraph) : SameEdges graph graph :=
  ⟨rfl, rfl, fun _ _ => Iff.rfl⟩

/-- The same graph with its blocks, and the edges of each block, in another order. -/
def Relists (graph relisted : ControlFlowGraph) : Prop :=
  relisted.entry = graph.entry ∧ ∃ blocks, graph.blocks.Perm blocks ∧
    List.Forall₂ (fun block other => other.id = block.id ∧ block.successors.Perm other.successors)
      blocks relisted.blocks

theorem Relists.blockIds (h : Relists graph other) : other.blockIds = graph.blockIds := by
  obtain ⟨_, blocks, hperm, hrelated⟩ := h
  have hids : other.blocks.map ControlFlowBlock.id = blocks.map ControlFlowBlock.id := by
    clear hperm
    generalize other.blocks = others at hrelated
    induction hrelated with
    | nil => rfl
    | cons hrelated _ ih => rw [List.map_cons, List.map_cons, ih, hrelated.1]
  refine sortedUnique_congr fun id => ?_
  rw [hids]
  exact ((hperm.map ControlFlowBlock.id).mem_iff).symm

/-- Blocks with distinct identities may be listed in any order, and so may their edges. -/
theorem Relists.sameEdges (h : Relists graph other)
    (hnodup : (graph.blocks.map ControlFlowBlock.id).Nodup) : SameEdges graph other := by
  refine ⟨h.1, h.blockIds, fun id target => ?_⟩
  rw [mem_validSuccessors, mem_validSuccessors, h.blockIds]
  obtain ⟨_, blocks, hperm, hrelated⟩ := h
  rcases find?_relisted ControlFlowBlock.id (fun _ _ hrelated => hrelated.1) hperm hrelated hnodup id with
    ⟨hnone, hnone'⟩ | ⟨block, block', hsome, hsome', _, hedges⟩
  · simp [findBlock, hnone, hnone']
  · simp [findBlock, hsome, hsome', hedges.mem_iff]

/-- **The facts of the blocks do not depend on how the graph lists them.** -/
theorem SameEdges.facts_eq (h : SameEdges graph other) :
    (analyzeControlFlow other).facts = (analyzeControlFlow graph).facts := by
  have hpreorder : ∀ id, id ∈ other.traversal.preorder ↔ id ∈ graph.traversal.preorder := by
    intro id
    rw [mem_preorder, mem_preorder]
    exact h.isReachable_iff id
  have hpredecessors : ∀ id, other.predecessorsOf id = graph.predecessorsOf id := by
    intro id
    unfold predecessorsOf
    rw [h.blockIds]
    exact List.filter_congr fun source _ => by simp [h.validSuccessors]
  have hsuccessors : ∀ id, (other.validSuccessors id).insertionSort (· ≤ ·)
      = (graph.validSuccessors id).insertionSort (· ≤ ·) := by
    intro id
    have hperm : (other.validSuccessors id).Perm (graph.validSuccessors id) := by
      rw [List.perm_ext_iff_of_nodup (validSuccessors_nodup _ _) (validSuccessors_nodup _ _)]
      exact h.validSuccessors id
    refine List.Perm.eq_of_pairwise' (List.pairwise_insertionSort (· ≤ ·) _)
      (List.pairwise_insertionSort (· ≤ ·) _) ?_
    exact (List.perm_insertionSort _ _).trans (hperm.trans (List.perm_insertionSort _ _).symm)
  have hfacts : other.blockFacts = graph.blockFacts := by
    funext id
    unfold blockFacts
    rw [hsuccessors, hpredecessors]
    simp only [hpreorder]
  show other.blockIds.map other.blockFacts = graph.blockIds.map graph.blockFacts
  rw [hfacts, h.blockIds]

theorem SameEdges.flowFact_eq (h : SameEdges graph other) (id : ControlFlowBlockId) :
    (analyzeControlFlow other).flowFact id = (analyzeControlFlow graph).flowFact id := by
  unfold ControlFlowResult.flowFact
  rw [h.facts_eq]

theorem SameEdges.preorder_perm (h : SameEdges graph other) :
    (analyzeControlFlow other).preorder.Perm (analyzeControlFlow graph).preorder := by
  show other.traversal.preorder.Perm graph.traversal.preorder
  rw [List.perm_ext_iff_of_nodup (traversal_preorder_nodup _) (traversal_preorder_nodup _)]
  intro id
  rw [mem_preorder, mem_preorder]
  exact h.isReachable_iff id

end ControlFlowGraph

/-! ## The worklist -/

/-- The direction in which changes propagate. -/
inductive WorklistDirection
  | forward | backward
deriving DecidableEq, Repr

namespace ControlFlowResult

def isReachable (flow : ControlFlowResult) (id : ControlFlowBlockId) : Bool :=
  match flow.flowFact id with
  | none => false
  | some facts => facts.reachable

/-- The blocks a change of a block affects. -/
def affected (flow : ControlFlowResult) (direction : WorklistDirection) (id : ControlFlowBlockId) :
    List ControlFlowBlockId :=
  match flow.flowFact id with
  | none => []
  | some facts =>
      match direction with
      | .forward => facts.successors
      | .backward => facts.predecessors

/-- All reachable blocks, in the order that suits the direction. -/
def seeds (flow : ControlFlowResult) (direction : WorklistDirection) : List ControlFlowBlockId :=
  let initial :=
    match direction with
    | .forward => flow.reversePostorder
    | .backward => flow.reversePostorder.reverse
  (initial.filter flow.isReachable).foldl schedule []

/-- The equations of an analysis, with the schedule of the worklist. -/
def equations {Fact : Type} (flow : ControlFlowResult) (direction : WorklistDirection)
    (evaluate : (ControlFlowBlockId → Fact) → ControlFlowBlockId → Fact) :
    Equations ControlFlowBlockId Fact where
  evaluate := evaluate
  dependents := fun id => (flow.affected direction id).filter flow.isReachable

/-- Run the worklist until it is empty; nothing when it is not empty after the given steps. -/
def solve {Fact : Type} [DecidableEq Fact] (flow : ControlFlowResult) (direction : WorklistDirection)
    (evaluate : (ControlFlowBlockId → Fact) → ControlFlowBlockId → Fact)
    (start : ControlFlowBlockId → Fact) (steps : Nat) : Option (ControlFlowBlockId → Fact) :=
  let finished := (flow.equations direction evaluate).run start (flow.seeds direction) steps
  if finished.pending = [] then some finished.facts else none

end ControlFlowResult

namespace ControlFlowGraph

variable {graph : ControlFlowGraph} {id target : ControlFlowBlockId}

theorem isReachable_eq : (analyzeControlFlow graph).isReachable id = true ↔ graph.IsReachable id := by
  unfold ControlFlowResult.isReachable
  rw [flowFact_eq]
  by_cases h : id ∈ graph.blockIds
  · rw [if_pos h]
    exact reachable_blockFacts
  · rw [if_neg h]
    exact ⟨fun hf => absurd hf Bool.false_ne_true, fun hr => absurd hr.mem_blockIds h⟩

theorem mem_reversePostorder : id ∈ (analyzeControlFlow graph).reversePostorder ↔ graph.IsReachable id := by
  show id ∈ graph.traversal.postorder.reverse ↔ _
  rw [List.mem_reverse, mem_postorder]

theorem mem_seeds (direction : WorklistDirection) :
    id ∈ (analyzeControlFlow graph).seeds direction ↔ id ∈ graph.traversal.preorder := by
  rw [mem_preorder]
  unfold ControlFlowResult.seeds
  cases direction <;>
    simp only [mem_foldl_schedule, List.not_mem_nil, false_or, List.mem_filter, isReachable_eq,
      List.mem_reverse, mem_reversePostorder, and_self]

/-- The readers of a block in the equations of a direction. -/
theorem mem_dependents {Fact : Type} {direction : WorklistDirection}
    {evaluate : (ControlFlowBlockId → Fact) → ControlFlowBlockId → Fact} (h : graph.IsReachable id) :
    target ∈ ((analyzeControlFlow graph).equations direction evaluate).dependents id ↔
      graph.IsReachable target ∧
        (match direction with
          | .forward => target ∈ graph.validSuccessors id
          | .backward => id ∈ graph.validSuccessors target) := by
  unfold ControlFlowResult.equations ControlFlowResult.affected
  simp only [List.mem_filter, isReachable_eq, flowFact_of_reachable h]
  cases direction with
  | forward =>
      simp only [mem_successors_blockFacts]
      exact and_comm
  | backward =>
      simp only [mem_predecessors_blockFacts]
      constructor
      · rintro ⟨⟨_, hedge⟩, hreach⟩
        exact ⟨hreach, hedge⟩
      · rintro ⟨hreach, hedge⟩
        exact ⟨⟨hreach, hedge⟩, hreach⟩

section Solve

variable {Fact : Type} [DecidableEq Fact] [PartialOrder Fact]
  {evaluate : (ControlFlowBlockId → Fact) → ControlFlowBlockId → Fact}

omit [DecidableEq Fact] in
/-- Facts that are computed from the facts of reachable predecessors. -/
theorem forward_lawful (hmonotone : Monotone evaluate)
    (hlocal : ∀ facts facts' reader, graph.IsReachable reader →
      (∀ source, graph.IsReachable source → reader ∈ graph.validSuccessors source →
        facts source = facts' source) →
      evaluate facts reader = evaluate facts' reader) :
    ((analyzeControlFlow graph).equations .forward evaluate).Lawful graph.traversal.preorder where
  monotone := hmonotone
  closed := by
    intro node hnode reader hreader
    rw [mem_preorder] at hnode ⊢
    exact ((mem_dependents hnode).mp hreader).1
  locality := by
    intro facts node fact reader hreader hnot
    rw [mem_preorder] at hreader
    refine hlocal _ _ reader hreader fun source hsource hedge => ?_
    rw [Function.update_of_ne]
    rintro rfl
    exact hnot ((mem_dependents hsource).mpr ⟨hreader, hedge⟩)

omit [DecidableEq Fact] in
/-- Facts that are computed from the facts of successors. -/
theorem backward_lawful (hmonotone : Monotone evaluate)
    (hlocal : ∀ facts facts' reader, graph.IsReachable reader →
      (∀ next ∈ graph.validSuccessors reader, facts next = facts' next) →
      evaluate facts reader = evaluate facts' reader) :
    ((analyzeControlFlow graph).equations .backward evaluate).Lawful graph.traversal.preorder where
  monotone := hmonotone
  closed := by
    intro node hnode reader hreader
    rw [mem_preorder] at hnode ⊢
    exact ((mem_dependents hnode).mp hreader).1
  locality := by
    intro facts node fact reader hreader hnot
    rw [mem_preorder] at hreader
    refine hlocal _ _ reader hreader fun next hedge => ?_
    rw [Function.update_of_ne]
    rintro rfl
    exact hnot ((mem_dependents (hreader.next hedge)).mpr ⟨hreader, hedge⟩)

/-- **From some number of steps on the worklist is empty.** -/
theorem solve_isSome [Finite Fact] {direction : WorklistDirection} {start : ControlFlowBlockId → Fact}
    (hlawful : ((analyzeControlFlow graph).equations direction evaluate).Lawful
      graph.traversal.preorder) (hstart : ∀ node ∈ graph.traversal.preorder, start node ≤ evaluate start node) :
    ∃ enough, ∀ steps ≥ enough, ∃ facts,
      (analyzeControlFlow graph).solve direction evaluate start steps = some facts := by
  obtain ⟨enough, hended⟩ := run_solves hlawful (fun _ => mem_seeds direction) hstart
  refine ⟨enough, fun steps hsteps => ?_⟩
  unfold ControlFlowResult.solve
  rw [if_pos (hended steps hsteps)]
  exact ⟨_, rfl⟩

/-- **What the worklist returns is the least solution over the reachable blocks.** -/
theorem solve_isLeastSolution {direction : WorklistDirection} {start facts : ControlFlowBlockId → Fact}
    {steps : Nat} (hlawful : ((analyzeControlFlow graph).equations direction evaluate).Lawful
      graph.traversal.preorder) (hstart : ∀ node ∈ graph.traversal.preorder, start node ≤ evaluate start node)
    (h : (analyzeControlFlow graph).solve direction evaluate start steps = some facts) :
    IsLeastSolution ((analyzeControlFlow graph).equations direction evaluate) graph.traversal.preorder
      start facts := by
  simp only [ControlFlowResult.solve] at h
  by_cases hended : (((analyzeControlFlow graph).equations direction evaluate).run start
      ((analyzeControlFlow graph).seeds direction) steps).pending = []
  · rw [if_pos hended] at h
    rw [← Option.some.inj h]
    exact run_isLeastSolution hlawful (fun _ => mem_seeds direction) hstart hended
  · rw [if_neg hended] at h
    cases h

end Solve

end ControlFlowGraph

end Tala.Analysis
